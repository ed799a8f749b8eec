import Mathlib.Data.List.Basic
/-!
# Conditional updates of a row

A row is read column by column; an update assigns values to some columns of the rows it applies to.
Updates are applied one by one, each to the row as the earlier ones left it. The theory is over any
rows, assignments, columns and values.

* `Rows.get_applyAll` — after all updates a column holds what the last assignment to it gave, among the
  assignments that took effect.
* `Rows.get_applyLast` — after only the last update that applies to the first row, what that one gave.
* `Rows.effective_eq_matching` — which take effect, where no update changes what applies.
-/

namespace ConditionalUpdate

/-- Rows `ρ` with columns `κ` and values `ν`, and assignments `α` to columns. Writing adds no column. -/
structure Rows (ρ α κ ν : Type) where
  get : ρ → κ → Option ν
  assigned : α → κ → Option ν
  write : ρ → α → ρ
  get_write : ∀ r a c, get (write r a) c = (get r c).map fun v => (assigned a c).getD v

structure Update (ρ α : Type) where
  applies : ρ → Bool
  assignments : α

namespace Rows

variable {ρ α κ ν : Type} (R : Rows ρ α κ ν)

def apply (r : ρ) (u : Update ρ α) : ρ := if u.applies r then R.write r u.assignments else r

/-- One update after the other. -/
def applyAll (r : ρ) (us : List (Update ρ α)) : ρ := us.foldl R.apply r

/-- The assignments that take effect, in order. -/
def effective : ρ → List (Update ρ α) → List α
  | _, [] => []
  | r, u :: us => if u.applies r then u.assignments :: effective (R.write r u.assignments) us else effective r us

/-- The last of the assignments to this column. -/
def lastWrite : List α → κ → Option ν
  | [], _ => none
  | a :: as, c => (lastWrite as c).or (R.assigned a c)

/-- **Last write wins.** -/
theorem get_applyAll (r : ρ) (us : List (Update ρ α)) (c : κ) :
    R.get (R.applyAll r us) c = (R.get r c).map fun v => (R.lastWrite (R.effective r us) c).getD v := by
  induction us generalizing r with
  | nil => simp [applyAll, effective, lastWrite]
  | cons u us ih =>
    have hcons : R.applyAll r (u :: us) = R.applyAll (R.apply r u) us := rfl
    rw [hcons, ih, effective, apply]
    by_cases hu : u.applies r
    · rw [if_pos hu, if_pos hu, lastWrite, R.get_write, Option.map_map]
      cases R.lastWrite (R.effective (R.write r u.assignments) us) c <;> rfl
    · rw [if_neg hu, if_neg hu]

/-- What every update keeps, all of them keep. -/
theorem applyAll_invariant {I : ρ → Prop} {r : ρ} {us : List (Update ρ α)}
    (hwrite : ∀ r, ∀ u ∈ us, I r → I (R.write r u.assignments)) (hr : I r) : I (R.applyAll r us) := by
  induction us generalizing r with
  | nil => exact hr
  | cons u us ih =>
    refine ih (fun r u' hu' => hwrite r u' (List.mem_cons_of_mem u hu')) ?_
    rw [apply]
    by_cases hu : u.applies r
    · rw [if_pos hu]
      exact hwrite r u (List.mem_cons_self ..) hr
    · rw [if_neg hu]
      exact hr

/-- The assignments of the last update that applies to this row. -/
def lastMatch (r : ρ) : List (Update ρ α) → Option α
  | [] => none
  | u :: us => (lastMatch r us).or (if u.applies r then some u.assignments else none)

theorem lastMatch_mem {r : ρ} {us : List (Update ρ α)} {a : α} (h : lastMatch r us = some a) :
    ∃ u ∈ us, u.assignments = a := by
  induction us with
  | nil => cases h
  | cons u us ih =>
    rw [lastMatch, Option.or_eq_some_iff] at h
    rcases h with h | ⟨_, h⟩
    · obtain ⟨u', hu', ha⟩ := ih h
      exact ⟨u', List.mem_cons_of_mem u hu', ha⟩
    · split_ifs at h
      exact ⟨u, List.mem_cons_self .., Option.some.inj h⟩

theorem lastMatch_eq_none {r : ρ} {us : List (Update ρ α)} (h : ∀ u ∈ us, u.applies r = false) : lastMatch r us = none := by
  induction us with
  | nil => rfl
  | cons u us ih =>
    rw [List.forall_mem_cons] at h
    rw [lastMatch, ih h.2, h.1]; rfl

theorem lastMatch_congr {r r' : ρ} {us : List (Update ρ α)} (h : ∀ u ∈ us, u.applies r = u.applies r') :
    lastMatch r us = lastMatch r' us := by
  induction us with
  | nil => rfl
  | cons u us ih =>
    rw [List.forall_mem_cons] at h
    rw [lastMatch, lastMatch, h.1, ih h.2]

/-- The assignments of all updates that apply to this row. -/
def matching (r : ρ) (us : List (Update ρ α)) : List α := (us.filter (·.applies r)).map (·.assignments)

theorem lastMatch_eq_getLast? (r : ρ) (us : List (Update ρ α)) : lastMatch r us = (matching r us).getLast? := by
  induction us with
  | nil => rfl
  | cons u us ih =>
    rw [lastMatch, ih, matching, matching, List.filter_cons]
    by_cases hu : u.applies r
    · rw [if_pos hu, if_pos hu, List.map_cons, List.getLast?_cons]
      cases ((us.filter (·.applies r)).map (·.assignments)).getLast? <;> rfl
    · rw [if_neg hu, if_neg hu, Option.or_none]

/-- Where no update changes what applies, those take effect that apply to the first row. -/
theorem effective_eq_matching {us : List (Update ρ α)}
    (h : ∀ u ∈ us, ∀ v ∈ us, ∀ r, v.applies (R.write r u.assignments) = v.applies r) (r : ρ) :
    R.effective r us = matching r us := by
  induction us generalizing r with
  | nil => rfl
  | cons u us ih =>
    have htail := ih fun v hv w hw => h v (List.mem_cons_of_mem u hv) w (List.mem_cons_of_mem u hw)
    rw [effective, matching, List.filter_cons]
    by_cases hu : u.applies r
    · have hsame : us.filter (·.applies (R.write r u.assignments)) = us.filter (·.applies r) :=
        List.filter_congr fun v hv => h u (List.mem_cons_self ..) v (List.mem_cons_of_mem u hv) r
      rw [if_pos hu, if_pos hu, List.map_cons, htail, matching, hsame]
    · rw [if_neg hu, if_neg hu, htail, matching]

theorem lastWrite_eq_none {as : List α} {c : κ} (h : ∀ a ∈ as, R.assigned a c = none) : R.lastWrite as c = none := by
  induction as with
  | nil => rfl
  | cons a as ih =>
    rw [List.forall_mem_cons] at h
    rw [lastWrite, ih h.2, h.1]; rfl

/-- The last assignments have the last word on the columns they assign. -/
theorem lastWrite_of_getLast? {as : List α} {a : α} {c : κ} {v : ν} (hlast : as.getLast? = some a)
    (hv : R.assigned a c = some v) : R.lastWrite as c = some v := by
  induction as with
  | nil => cases hlast
  | cons b as ih =>
    rw [List.getLast?_cons] at hlast
    rw [lastWrite]
    cases htail : as.getLast? with
    | none =>
      obtain rfl : b = a := by simpa [htail] using hlast
      rw [List.getLast?_eq_none_iff.1 htail, lastWrite, hv]; rfl
    | some b' =>
      rw [htail] at hlast
      rw [ih (htail.trans hlast)]; rfl

/-- The row with one set of assignments written, if there is one. -/
def override (r : ρ) : Option α → ρ
  | none => r
  | some a => R.write r a

theorem get_override (r : ρ) (o : Option α) (c : κ) :
    R.get (R.override r o) c = (R.get r c).map fun v => (o.bind (R.assigned · c)).getD v := by
  cases o with
  | none => simp [override]
  | some a => exact R.get_write r a c

/-- Only the last update that applies to this row. -/
def applyLast (r : ρ) (us : List (Update ρ α)) : ρ := R.override r (lastMatch r us)

theorem get_applyLast (r : ρ) (us : List (Update ρ α)) (c : κ) :
    R.get (R.applyLast r us) c = (R.get r c).map fun v => ((lastMatch r us).bind (R.assigned · c)).getD v :=
  R.get_override r (lastMatch r us) c

/-- What a write keeps, the last update keeps. -/
theorem applyLast_invariant {I : ρ → Prop} {r : ρ} {us : List (Update ρ α)}
    (hwrite : ∀ r, ∀ u ∈ us, I r → I (R.write r u.assignments)) (hr : I r) : I (R.applyLast r us) := by
  rw [applyLast]
  cases hlast : lastMatch r us with
  | none => exact hr
  | some a =>
    obtain ⟨u, hu, rfl⟩ := lastMatch_mem hlast
    exact hwrite r u hu hr

end Rows

end ConditionalUpdate
