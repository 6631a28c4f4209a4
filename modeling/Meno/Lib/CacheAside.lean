import Mathlib.Data.List.Induction
import Meno.Lib.Expiring

/-!
# Lib.CacheAside

Reading through a cache: what is not found is made from the data as they are and kept under the
request's key, until it expires or is dropped. What is found at a key is then what was made for the
request that opened it (`opener`), from the data of that time (`run_eq_opener`); the opener is a
matter of the history of requests and of their times only.
-/

namespace Lib

/-- Requests `Q`, each with its key, and what is kept of a request's answer on data `D`, if anything
is. -/
structure CacheAside (κ Q D V : Type) where
  key : Q → κ
  build : Q → D → Option V

namespace CacheAside

variable {κ Q D V T : Type}

inductive Event (κ Q D T : Type)
  /-- A request, with the data as they are, the time of its lookup, and the last time at which what
  it stores is found. -/
  | read (q : Q) (d : D) (now deadline : T)
  | drop (k : κ)

/-- A request that found nothing, with the data as they were. -/
structure Opening (Q D T : Type) where
  request : Q
  data : D
  deadline : T

variable [DecidableEq κ] [LE T] [DecidableLE T] (A : CacheAside κ Q D V)

def step (m : Expiring κ V T) : Event κ Q D T → Expiring κ V T
  | .read q d now deadline =>
    match m.entry now (A.key q), A.build q d with
    | none, some v => m.set (A.key q) (some { value := v, deadline := some deadline })
    | _, _ => m
  | .drop k => m.set k none

def run (events : List (Event κ Q D T)) : Expiring κ V T := events.foldl A.step .empty

/-- Whose answer a key holds after one more event. -/
def reopen (k : κ) (o : Option (Opening Q D T)) : Event κ Q D T → Option (Opening Q D T)
  | .read q d now deadline =>
    if A.key q = k ∧ (A.build q d).isSome ∧ ∀ o' ∈ o, ¬ now ≤ o'.deadline then
      some { request := q, data := d, deadline := deadline }
    else o
  | .drop k' => if k' = k then none else o

/-- Whose answer a key holds. -/
def opener (k : κ) (events : List (Event κ Q D T)) : Option (Opening Q D T) :=
  events.foldl (A.reopen k) none

/-- What an opening leaves under its key. -/
def Opening.entry (o : Opening Q D T) : Option (Entry V T) :=
  (A.build o.request o.data).map fun v => { value := v, deadline := some o.deadline }

section Laws

variable {A} {events : List (Event κ Q D T)} {e : Event κ Q D T} {k : κ}

@[simp] theorem run_concat : A.run (events ++ [e]) = A.step (A.run events) e := by simp [run]

@[simp] theorem opener_concat : A.opener k (events ++ [e]) = A.reopen k (A.opener k events) e := by
  simp [opener]

/-- An opening is a request for its key, and something was kept of its answer. -/
theorem opener_opens {o : Opening Q D T} (h : A.opener k events = some o) :
    A.key o.request = k ∧ (A.build o.request o.data).isSome := by
  induction events using List.reverseRecOn with
  | nil => cases h
  | append_singleton events e ih =>
    rw [opener_concat] at h
    cases e with
    | read q d now deadline =>
      simp only [reopen] at h
      split at h
      · rename_i hopens
        obtain rfl := Option.some.inj h
        exact ⟨hopens.1, hopens.2.1⟩
      · exact ih h
    | drop k' =>
      simp only [reopen] at h
      split at h
      · cases h
      · exact ih h

/-- A key that an opening holds is found until the opening's deadline. -/
theorem entry_of_opener (hrun : (A.run events : Expiring κ V T) k =
      (A.opener k events).bind (Opening.entry A)) (now : T) :
    (A.run events).entry now k = none ↔ ∀ o ∈ A.opener k events, ¬ now ≤ o.deadline := by
  rw [Expiring.entry, hrun]
  cases hopener : A.opener k events with
  | none => simp
  | some o =>
    obtain ⟨v, hv⟩ := Option.isSome_iff_exists.1 (opener_opens hopener).2
    simp [Opening.entry, hv, Option.filter_eq_none_iff, Expiring.Alive]

theorem run_eq_opener (events : List (Event κ Q D T)) (k : κ) :
    (A.run events : Expiring κ V T) k = (A.opener k events).bind (Opening.entry A) := by
  induction events using List.reverseRecOn generalizing k with
  | nil => rfl
  | append_singleton events e ih =>
    rw [run_concat, opener_concat]
    cases e with
    | read q d now deadline =>
      have hentry := entry_of_opener (ih (A.key q)) now
      simp only [step, reopen]
      by_cases hkey : A.key q = k
      · subst hkey
        cases hfound : (A.run events).entry now (A.key q) with
        | some v =>
          have halive : ¬ ∀ o ∈ A.opener (A.key q) events, ¬ now ≤ o.deadline := fun hall => by
            rw [hentry.2 hall] at hfound
            cases hfound
          rw [if_neg (fun hopens => halive hopens.2.2)]
          exact ih _
        | none =>
          have hall := hentry.1 hfound
          cases hbuild : A.build q d with
          | none => simpa using ih _
          | some v =>
            rw [if_pos ⟨rfl, rfl, hall⟩]
            simp [Expiring.set_apply, Opening.entry, hbuild]
      · have hother : ∀ e, Expiring.set (A.run events : Expiring κ V T) (A.key q) e k =
            A.run events k := fun e => if_neg (Ne.symm hkey)
        rw [if_neg (fun hopens => hkey hopens.1), ← ih k]
        cases (A.run events).entry now (A.key q) with
        | some e => rfl
        | none =>
          cases A.build q d with
          | none => rfl
          | some v => exact hother _
    | drop k' =>
      simp only [step, reopen, Expiring.set_apply]
      by_cases hkey : k' = k
      · rw [if_pos hkey.symm, if_pos hkey]
        rfl
      · rw [if_neg (Ne.symm hkey), if_neg hkey]
        exact ih k

/-- What is found at a key was made for its opener. -/
theorem find_eq_some {v : V} {now : T} (h : (A.run events : Expiring κ V T).find now k = some v) :
    ∃ o, A.opener k events = some o ∧ now ≤ o.deadline ∧ A.build o.request o.data = some v := by
  obtain ⟨entry, hentry, rfl, halive⟩ := Expiring.find_eq_some h
  rw [run_eq_opener] at hentry
  obtain ⟨o, ho, hentry⟩ := Option.bind_eq_some_iff.1 hentry
  obtain ⟨v, hv, rfl⟩ := Option.map_eq_some_iff.1 hentry
  exact ⟨o, ho, halive o.deadline rfl, hv⟩

theorem find_of_opener {o : Opening Q D T} {now : T} (h : A.opener k events = some o)
    (halive : now ≤ o.deadline) :
    (A.run events : Expiring κ V T).find now k = A.build o.request o.data := by
  obtain ⟨v, hv⟩ := Option.isSome_iff_exists.1 (opener_opens h).2
  have hentry : (A.run events : Expiring κ V T) k =
      some { value := v, deadline := some o.deadline } := by
    rw [run_eq_opener, h]
    simp [Opening.entry, hv]
  rw [Expiring.find_of_alive hentry (by rintro t ⟨⟩; exact halive), hv]

end Laws

end CacheAside

end Lib
