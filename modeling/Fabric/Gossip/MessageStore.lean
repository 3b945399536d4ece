import Fabric.Library.Outcome

/-!
# Stores with a replacing policy

A store keeps the messages that no later one has replaced.  The policy compares
a new message with a stored one and may panic.
-/

namespace Fabric.Gossip.MessageStore

open Library Outcome

universe u v

/-- What a new message means for a stored one. -/
inductive InvalidationResult where
  | noAction
  | invalidates
  | invalidated
deriving DecidableEq

section

variable {Message : Type u} {Reason : Type}
  (policy : Message → Message → Outcome Reason InvalidationResult)

/--
Compare a message with each stored one: those that it replaces are dropped, and
it is refused at the first one that replaces it.  The result tells whether the
message was added.
-/
def addFrom (message : Message) : List Message → List Message → Outcome Reason (Bool × List Message)
  | kept, [] => .ok (true, kept ++ [message])
  | kept, stored :: rest =>
    match policy message stored with
    | .ok .invalidated => .ok (false, kept ++ stored :: rest)
    | .ok .invalidates => addFrom message kept rest
    | .ok .noAction => addFrom message (kept ++ [stored]) rest
    | .error reason => .error reason
    | .panic => .panic

def add (message : Message) (messages : List Message) : Outcome Reason (Bool × List Message) :=
  addFrom policy message [] messages

/-- Whether no stored message replaces the given one. -/
def checkValid (message : Message) : List Message → Outcome Reason Bool
  | [] => .ok true
  | stored :: rest =>
    match policy message stored with
    | .ok .invalidated => .ok false
    | .ok _ => checkValid message rest
    | .error reason => .error reason
    | .panic => .panic

variable {policy}

/--
What is left of the stored messages after a message was compared with them.  A
message is refused because of a stored one; if it is added, none of those that
are left is replaced by it.
-/
structure Replaced (policy : Message → Message → Outcome Reason InvalidationResult)
    (message : Message) (messages : List Message) (added : Bool)
    (remaining : List Message) : Prop where
  refused : added = false → remaining.Sublist messages ∧
        ∃ stored ∈ messages, policy message stored = .ok .invalidated
  kept : added = true → ∃ kept, kept.Sublist messages ∧ remaining = kept ++ [message] ∧
        ∀ stored ∈ kept, policy message stored = .ok .noAction

theorem Replaced.of_sublist
    {message : Message} {smaller messages remaining : List Message} {added : Bool}
    (replaced : Replaced policy message smaller added remaining)
    (sublist : smaller.Sublist messages) :
    Replaced policy message messages added remaining := by
  constructor
  · intro refused
    rcases replaced.refused refused with ⟨fewer, stored, member, result⟩
    exact ⟨fewer.trans sublist, stored, sublist.subset member, result⟩
  · intro isAdded
    rcases replaced.kept isAdded with ⟨kept, fewer, same, keeps⟩
    exact ⟨kept, fewer.trans sublist, same, keeps⟩

section

variable {message : Message} {Comparable : Message → Prop}

theorem addFrom_returnsIff (kept messages : List Message)
    (compares : ∀ stored, ReturnsIff (Comparable stored) (fun _ => True) (policy message stored))
    (decided : messages.Pairwise fun first later =>
        policy message first = .ok .invalidated → Comparable later)
    (keeps : ∀ stored ∈ kept, policy message stored = .ok .noAction) :
    ReturnsIff (∀ stored ∈ messages, Comparable stored) (fun result =>
        Replaced policy message (kept ++ messages) result.1 result.2)
      (addFrom policy message kept messages) := by
  induction messages generalizing kept with
  | nil =>
    refine ReturnsIff.ok (by simp) ?_
    constructor
    · intro absent
      cases absent
    · intro _
      exact ⟨kept, by simp, rfl, keeps⟩
  | cons stored _ ih =>
    rw [List.pairwise_cons] at decided
    unfold addFrom
    by_cases comparable : Comparable stored
    · rcases (compares stored).returns comparable with ⟨verdict, result, _⟩
      cases verdict with
      | invalidated =>
        simp only [result]
        refine ReturnsIff.ok ?_ ?_
        · intro other member
          rcases List.mem_cons.mp member with same | member
          · rw [same]
            exact comparable
          · exact decided.1 other member result
        · constructor
          · intro _
            exact ⟨List.Sublist.refl _, stored, by simp, result⟩
          · intro absent
            cases absent
      | noAction =>
        simp only [result]
        have rested := ih (kept ++ [stored]) decided.2 (by
            intro other member
            rcases List.mem_append.mp member with member | member
            · exact keeps other member
            · rw [List.mem_singleton.mp member]
              exact result)
        rw [List.append_assoc, List.singleton_append] at rested
        exact rested.of_iff (by simp [comparable])
      | invalidates =>
        simp only [result]
        have rested := ih kept decided.2 keeps
        exact (rested.of_iff (by simp [comparable])).imp fun _ replaced =>
          replaced.of_sublist (List.Sublist.append_left (List.sublist_cons_self _ _) kept)
    · simp only [(compares stored).panics comparable]
      apply ReturnsIff.panic
      intro all
      exact comparable (all stored List.mem_cons_self)

theorem add_returnsIff (messages : List Message)
    (compares : ∀ stored, ReturnsIff (Comparable stored) (fun _ => True) (policy message stored))
    (decided : messages.Pairwise fun first later =>
        policy message first = .ok .invalidated → Comparable later) :
    ReturnsIff (∀ stored ∈ messages, Comparable stored)
      (fun result => Replaced policy message messages result.1 result.2)
      (add policy message messages) :=
  addFrom_returnsIff [] messages compares decided (by simp)

end

section

variable {Message : Type} {policy : Message → Message → Outcome Reason InvalidationResult}
  {message : Message} {Comparable : Message → Prop}

theorem checkValid_eq (kept messages : List Message) :
    checkValid policy message messages =
      addFrom policy message kept messages >>= fun result => .ok result.1 := by
  induction messages generalizing kept with
  | nil => rfl
  | cons stored _ ih =>
    unfold checkValid addFrom
    rcases policy message stored with verdict | _ | _
    · cases verdict with
      | invalidated => rfl
      | noAction | invalidates => exact ih _
    · rfl
    · rfl

theorem checkValid_returnsIff (messages : List Message)
    (compares : ∀ stored, ReturnsIff (Comparable stored) (fun _ => True) (policy message stored))
    (decided : messages.Pairwise fun first later =>
        policy message first = .ok .invalidated → Comparable later) :
    ReturnsIff (∀ stored ∈ messages, Comparable stored) (fun valid =>
        valid = false → ∃ stored ∈ messages, policy message stored = .ok .invalidated)
      (checkValid policy message messages) := by
  rw [checkValid_eq []]
  exact (add_returnsIff messages compares decided).bind_ok fun _ replaced refused =>
    (replaced.refused refused).2

end

end

end Fabric.Gossip.MessageStore
