import Tasker.Models

/-!
The collections `users` and `tasks` of Firestore, the writes the screens issue
to them, and the answers of their reads.

* `Store`: the stored documents.
* `Write`: one write of one document, with the fields it carries; every
  `setData`, `setData(_, merge: true)`, `updateData` and `addDocument` of the
  screens is one of these, and `Write.apply` is what the server does when it
  commits it.
* `Fetched`: the answer of a `getDocument`, with the result of decoding it.
-/

namespace Tasker

open DocStore

/-- The stored documents of `users` and `tasks`. -/
structure Store (R : Type := ℚ) where
  users : Collection String (User R) := ∅
  tasks : Collection String TaskDoc := ∅

/-- One write of one document. -/
inductive Write (R : Type := ℚ) where
  /-- `users/uid`, `setData`. -/
  | setUser (uid : String) (fields : User R)
  /-- `users/uid`, `setData` with `merge: true`. -/
  | mergeUser (uid : String) (fields : User R)
  /-- `users/uid`, `updateData`. -/
  | updateUser (uid : String) (fields : User R)
  /-- `tasks`, `addDocument`, under the id generated for it. -/
  | addTask (id : String) (fields : TaskDoc)
  /-- `tasks/id`, `setData` with `merge: true`. -/
  | mergeTask (id : String) (fields : TaskDoc)
  /-- `tasks/id`, `updateData`. -/
  | updateTask (id : String) (fields : TaskDoc)

variable {R : Type}

/-- The store after a write is committed. -/
def Write.apply : Write R → Store R → Store R
  | .setUser uid fields, s => { s with users := setData s.users uid fields }
  | .mergeUser uid fields, s => { s with users := mergeData s.users uid fields }
  | .updateUser uid fields, s => { s with users := updateData s.users uid fields }
  | .addTask id fields, s => { s with tasks := setData s.tasks id fields }
  | .mergeTask id fields, s => { s with tasks := mergeData s.tasks id fields }
  | .updateTask id fields, s => { s with tasks := updateData s.tasks id fields }

section apply

variable (s : Store R) (uid id : String) (u : User R) (t : TaskDoc)

@[simp] lemma setUser_users :
    (Write.apply (.setUser uid u) s).users = setData s.users uid u := rfl

@[simp] lemma setUser_tasks : (Write.apply (.setUser uid u) s).tasks = s.tasks := rfl

@[simp] lemma mergeUser_users :
    (Write.apply (.mergeUser uid u) s).users = mergeData s.users uid u := rfl

@[simp] lemma mergeUser_tasks : (Write.apply (.mergeUser uid u) s).tasks = s.tasks := rfl

@[simp] lemma updateUser_users :
    (Write.apply (.updateUser uid u) s).users = updateData s.users uid u := rfl

@[simp] lemma updateUser_tasks : (Write.apply (.updateUser uid u) s).tasks = s.tasks := rfl

@[simp] lemma addTask_users : (Write.apply (.addTask id t) s).users = s.users := rfl

@[simp] lemma addTask_tasks :
    (Write.apply (.addTask id t) s).tasks = setData s.tasks id t := rfl

@[simp] lemma mergeTask_users : (Write.apply (.mergeTask id t) s).users = s.users := rfl

@[simp] lemma mergeTask_tasks :
    (Write.apply (.mergeTask id t) s).tasks = mergeData s.tasks id t := rfl

@[simp] lemma updateTask_users : (Write.apply (.updateTask id t) s).users = s.users := rfl

@[simp] lemma updateTask_tasks :
    (Write.apply (.updateTask id t) s).tasks = updateData s.tasks id t := rfl

end apply

/-- The answer of a `getDocument`, decoded: an error, no document, a document
that does not decode, or a document. -/
inductive Fetched (D : Type*) where
  | error
  | missing
  | undecodable
  | document (d : D)

/-- The answer that shows what a key holds. -/
def Fetched.ofLookup {D : Type*} : Option D → Fetched D
  | some d => .document d
  | none => .missing

/-- The document of an answer that brings one. -/
def Fetched.toOption {D : Type*} : Fetched D → Option D
  | .document d => some d
  | _ => none

@[simp] lemma Fetched.ofLookup_some {D : Type*} (d : D) :
    Fetched.ofLookup (some d) = .document d := rfl

@[simp] lemma Fetched.ofLookup_none {D : Type*} :
    Fetched.ofLookup (none : Option D) = .missing := rfl

end Tasker
