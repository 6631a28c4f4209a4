import Mathlib.Order.Defs.LinearOrder
import Mathlib.Tactic.Common

/-!
# Lib.Expiring

A store of values under keys, each with the time until which it is there, if it has one. What has
expired is not found any more; nothing else distinguishes it from a key that was deleted.
-/

namespace Lib

structure Entry (V T : Type) where
  value : V
  /-- The last time at which the entry is found; none if it stays. -/
  deadline : Option T
deriving DecidableEq

def Expiring (κ V T : Type) := κ → Option (Entry V T)

namespace Expiring

variable {κ V T : Type}

def empty : Expiring κ V T := fun _ => none

/-- The key's entry from now on. -/
def set [DecidableEq κ] (m : Expiring κ V T) (k : κ) (e : Option (Entry V T)) : Expiring κ V T :=
  fun k' => if k' = k then e else m k'

theorem set_apply [DecidableEq κ] (m : Expiring κ V T) (k k' : κ) (e : Option (Entry V T)) :
    m.set k e k' = if k' = k then e else m k' := rfl

def remove [DecidableEq κ] (m : Expiring κ V T) (ks : List κ) : Expiring κ V T :=
  fun k => if k ∈ ks then none else m k

theorem remove_of_not_mem [DecidableEq κ] {m : Expiring κ V T} {ks : List κ} {k : κ}
    (h : k ∉ ks) : m.remove ks k = m k := if_neg h

@[simp] theorem remove_nil [DecidableEq κ] (m : Expiring κ V T) : m.remove [] = m :=
  funext fun _ => remove_of_not_mem List.not_mem_nil

section Find

variable [LE T] [DecidableLE T]

def Alive (e : Entry V T) (now : T) : Prop := ∀ t ∈ e.deadline, now ≤ t

instance (e : Entry V T) (now : T) : Decidable (Alive e now) :=
  inferInstanceAs (Decidable (∀ t ∈ e.deadline, now ≤ t))

/-- The entry that a call at `now` finds. -/
def entry (m : Expiring κ V T) (now : T) (k : κ) : Option (Entry V T) :=
  (m k).filter fun e => decide (Alive e now)

def find (m : Expiring κ V T) (now : T) (k : κ) : Option V := (m.entry now k).map Entry.value

theorem find_congr {m m' : Expiring κ V T} {k : κ} (h : m k = m' k) (now : T) :
    m.find now k = m'.find now k := by rw [find, entry, h, find, entry]

@[simp] theorem find_empty (now : T) (k : κ) : (empty : Expiring κ V T).find now k = none := rfl

theorem find_of_alive {m : Expiring κ V T} {now : T} {k : κ} {e : Entry V T} (h : m k = some e)
    (halive : Alive e now) : m.find now k = some e.value := by
  simp [find, entry, h, Option.filter, halive]

theorem find_eq_some {m : Expiring κ V T} {now : T} {k : κ} {v : V} (h : m.find now k = some v) :
    ∃ e, m k = some e ∧ e.value = v ∧ Alive e now := by
  obtain ⟨e, he, rfl⟩ := Option.map_eq_some_iff.1 h
  obtain ⟨he, halive⟩ := Option.filter_eq_some_iff.1 he
  exact ⟨e, he, rfl, of_decide_eq_true halive⟩

end Find

/-- What is found later was there before. -/
theorem find_of_later [Preorder T] [DecidableLE T] {m : Expiring κ V T} {now later : T} {k : κ}
    {v : V} (h : now ≤ later) (hv : m.find later k = some v) : m.find now k = some v := by
  obtain ⟨e, he, rfl, halive⟩ := find_eq_some hv
  exact find_of_alive he fun t ht => le_trans h (halive t ht)

end Expiring

end Lib
