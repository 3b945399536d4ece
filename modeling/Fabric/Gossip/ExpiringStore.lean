import Fabric.Gossip.MessageStore
import Mathlib.Tactic.SplitIfs

/-!
# Counting expired messages

A store with a time to live marks old messages as expired, counts them and drops
them when they are twice as old.  Messages that are replaced or purged leave the
store without a look at their mark, so the counter keeps the expired ones among
them.
-/

namespace Fabric.Gossip.ExpiringStore

open Library MessageStore

/-- A message with the time it was added at and its mark. -/
structure Msg (Data : Type) where
  data : Data
  created : Int
  expired : Bool

/-- The messages, and how many of them are counted as expired. -/
structure Store (Data : Type) where
  messages : List (Msg Data)
  expiredCount : Int

section

variable {Data : Type}

/-- What the store reports as its size. -/
def Store.size (store : Store Data) : Int :=
  store.messages.length - store.expiredCount

def Store.get (store : Store Data) : List Data :=
  (store.messages.filter fun m => !m.expired).map Msg.data

/--
One pass over the messages, with the clock read for each of them: what is left,
and by how much the counter changes.
-/
def expireMessages (msgTTL : Int) : (clock : Nat → Int) → List (Msg Data) → List (Msg Data) × Int
  | _, [] => ([], 0)
  | clock, m :: rest =>
    let (rest, change) := expireMessages msgTTL (fun visit => clock (visit + 1)) rest
    if m.expired = false then
      if clock 0 - m.created > msgTTL then ({ m with expired := true } :: rest, change + 1)
      else (m :: rest, change)
    else if clock 0 - m.created > msgTTL * 2 then (rest, change - 1)
    else (m :: rest, change)

variable (policy : Data → Data → Outcome Empty InvalidationResult)

/-- The replacing policy looks at the data only. -/
def onData (message stored : Msg Data) : Outcome Empty InvalidationResult :=
  policy message.data stored.data

def expiredIn (messages : List (Msg Data)) : Nat :=
  messages.countP Msg.expired

/-- The expired messages that are replaced by a new one. -/
def replacedExpired (message : Msg Data) : List (Msg Data) → Nat
  | [] => 0
  | stored :: rest =>
    match onData policy message stored with
    | .ok .invalidated => 0
    | .ok .invalidates => expiredIn [stored] + replacedExpired message rest
    | _ => replacedExpired message rest

/--
The stores that can be reached, with the number of expired messages that were
replaced or purged on the way.
-/
inductive Reaches (msgTTL : Int) : (lost : Nat) → Store Data → Prop where
  | new : Reaches msgTTL 0 ⟨[], 0⟩
  | add {lost : Nat} {store : Store Data} {added : Bool} {messages : List (Msg Data)}
      (reached : Reaches msgTTL lost store) (message : Data) (now : Int)
      (adds : MessageStore.add (onData policy) ⟨message, now, false⟩ store.messages =
        .ok (added, messages)) :
      Reaches msgTTL (lost + replacedExpired policy ⟨message, now, false⟩ store.messages)
        { store with messages }
  | purge {lost : Nat} {store : Store Data} (reached : Reaches msgTTL lost store)
      (shouldBePurged : Data → Bool) :
      Reaches msgTTL (lost + expiredIn (store.messages.filter fun m => shouldBePurged m.data))
        { store with messages := store.messages.filter fun m => !shouldBePurged m.data }
  | expire {lost : Nat} {store : Store Data} (reached : Reaches msgTTL lost store)
      (clock : Nat → Int) :
      Reaches msgTTL lost
        ⟨(expireMessages msgTTL clock store.messages).1,
          store.expiredCount + (expireMessages msgTTL clock store.messages).2⟩

theorem expiredIn_expireMessages (msgTTL : Int) (clock : Nat → Int) (messages : List (Msg Data)) :
    (expiredIn (expireMessages msgTTL clock messages).1 : Int) =
      expiredIn messages + (expireMessages msgTTL clock messages).2 := by
  induction messages generalizing clock with
  | nil => rfl
  | cons m rest ih =>
    have rested := ih fun visit => clock (visit + 1)
    simp only [expiredIn] at rested
    simp only [expireMessages, expiredIn]
    split_ifs <;> simp_all <;> omega

theorem expiredIn_append (left right : List (Msg Data)) :
    expiredIn (left ++ right) = expiredIn left + expiredIn right :=
  List.countP_append

theorem expiredIn_addFrom {message : Msg Data} {added : Bool} {remaining : List (Msg Data)}
    (fresh : message.expired = false) (kept messages : List (Msg Data))
    (adds : addFrom (onData policy) message kept messages = .ok (added, remaining)) :
    expiredIn remaining + replacedExpired policy message messages =
      expiredIn kept + expiredIn messages := by
  induction messages generalizing kept with
  | nil =>
    cases adds
    simp [expiredIn, replacedExpired, fresh]
  | cons stored rest ih =>
    have split : expiredIn (stored :: rest) = _ := expiredIn_append [stored] rest
    have moved := expiredIn_append kept [stored]
    unfold addFrom at adds
    unfold replacedExpired
    cases verdict : onData policy message stored with
    | error reason => cases reason
    | panic => simp [verdict] at adds
    | ok result =>
      cases result with
      | invalidated =>
        simp only [verdict] at adds ⊢
        cases adds
        exact expiredIn_append kept (stored :: rest)
      | invalidates =>
        simp only [verdict] at adds ⊢
        have rested := ih kept adds
        omega
      | noAction =>
        simp only [verdict] at adds ⊢
        have rested := ih (kept ++ [stored]) adds
        omega

/-- The counter is ahead by the expired messages that were replaced or purged. -/
theorem Reaches.expiredCount_eq {msgTTL : Int} {lost : Nat} {store : Store Data}
    (reached : Reaches policy msgTTL lost store) :
    store.expiredCount = expiredIn store.messages + lost := by
  induction reached with
  | new => rfl
  | @add lost store _ messages _ _ _ adds ih =>
    have counts := expiredIn_addFrom policy rfl [] store.messages adds
    simp only [expiredIn, List.countP_nil] at counts ih ⊢
    omega
  | @purge lost store _ shouldBePurged ih =>
    have counts := List.countP_eq_countP_filter_add store.messages Msg.expired
        fun m => shouldBePurged m.data
    simp only [expiredIn] at ih ⊢
    omega
  | @expire lost store _ clock ih =>
    have counts := expiredIn_expireMessages msgTTL clock store.messages
    dsimp only
    omega

theorem length_get (store : Store Data) :
    (store.get.length : Int) = store.messages.length - expiredIn store.messages := by
  have counts := store.messages.length_eq_countP_add_countP Msg.expired
  rw [Store.get, List.length_map, ← List.countP_eq_length_filter, expiredIn]
  simp only [Bool.not_eq_true, Bool.decide_eq_false] at counts
  omega

/-- The counter and the size are right. -/
def Store.CountsExpired (store : Store Data) : Prop :=
  store.expiredCount = expiredIn store.messages ∧ store.size = store.get.length ∧ 0 ≤ store.size

/-- They are as long as no expired message was replaced or purged. -/
theorem countsExpired_iff {msgTTL : Int} {lost : Nat} {store : Store Data}
    (reached : Reaches policy msgTTL lost store) : store.CountsExpired ↔ lost = 0 := by
  have counts := reached.expiredCount_eq
  have length := length_get store
  rw [Store.CountsExpired, Store.size]
  omega

end

namespace Sample

/-- Every message replaces every other. -/
def policy (_ _ : Nat) : Outcome Empty InvalidationResult :=
  .ok .invalidates

/-- A message has expired. -/
def aged : Store Nat := ⟨[⟨0, 0, true⟩], 1⟩

/-- The expired message was replaced, and the new one purged. -/
def purged : Store Nat := ⟨[], 1⟩

theorem reaches_aged : Reaches policy 1 0 aged := by
  have added : Reaches policy 1 0 ⟨[⟨0, 0, false⟩], 0⟩ := Reaches.new.add 0 0 rfl
  exact added.expire fun _ => 2

theorem reaches_purged : Reaches policy 1 1 purged := by
  have replaced : Reaches policy 1 1 ⟨[⟨1, 2, false⟩], 1⟩ := reaches_aged.add 1 2 rfl
  exact replaced.purge fun _ => true

end Sample

theorem countsExpired_iff_purged :
    Sample.aged.CountsExpired ∧ ¬ Sample.purged.CountsExpired := by
  refine ⟨(countsExpired_iff _ Sample.reaches_aged).mpr rfl, ?_⟩
  rw [countsExpired_iff _ Sample.reaches_purged]
  decide

theorem size_negative : Reaches Sample.policy 1 1 Sample.purged ∧ Sample.purged.size = -1 :=
  ⟨Sample.reaches_purged, rfl⟩

end Fabric.Gossip.ExpiringStore
