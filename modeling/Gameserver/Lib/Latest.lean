import Mathlib.Data.List.Basic

/-!
# What a listener will hold

A listener overwrites a field with every message it handles.  What it holds once a queue is
handled is the last message of the queue, or, if there is none, what it holds now.
-/

namespace Listener

variable {V : Type*}

/-- The field after the messages of a queue have been handled. -/
def latest (field : V) (queue : List V) : V := queue.foldl (fun _ v => v) field

@[simp] theorem latest_nil (field : V) : latest field [] = field := rfl

/-- Handling a message does not change what the listener will hold. -/
@[simp] theorem latest_cons (field v : V) (queue : List V) :
    latest field (v :: queue) = latest v queue := rfl

/-- A message that joins the queue will be the one that counts. -/
@[simp] theorem latest_concat (field v : V) (queue : List V) :
    latest field (queue ++ [v]) = v := by
  rw [latest, List.foldl_append]
  rfl

end Listener
