import Mathlib.Data.List.Induction

/-!
# Meters

A meter adds up samples and, at a reading, shows a summary of those that came in since the reading before; a reading
without new samples leaves what was shown. `windows` cuts a history into the samples between its readings.

* `windows_flatten`: every sample is in exactly one window;
* `run_eq`: the meter holds the sum of the open window and shows the summary of the last window that was read and had
  samples in it.
-/

/-- What samples add up to, when there is something to read, and what a reading shows. -/
structure Meter (σ γ ρ : Type*) where
  zero : γ
  add : γ → σ → γ
  pending : γ → Bool
  summary : γ → ρ

namespace Meter

variable {σ γ ρ : Type*}

inductive Event (σ : Type*) where
  | sample (x : σ)
  | reading

structure State (γ ρ : Type*) where
  total : γ
  shown : Option ρ

/-- The samples of each window that was read, and those of the open one. -/
structure Windows (σ : Type*) where
  closed : List (List σ)
  current : List σ

def Windows.step (w : Windows σ) : Event σ → Windows σ
  | .sample x => { w with current := w.current ++ [x] }
  | .reading => ⟨w.closed ++ [w.current], []⟩

def windows (events : List (Event σ)) : Windows σ := events.foldl Windows.step ⟨[], []⟩

/-- The last window that was read with samples in it. -/
def Windows.last (w : Windows σ) : Option (List σ) := (w.closed.filter (fun samples => !samples.isEmpty)).getLast?

def Event.sample? : Event σ → Option σ
  | .sample x => some x
  | .reading => none

theorem windows_append_singleton (events : List (Event σ)) (e : Event σ) :
    windows (events ++ [e]) = (windows events).step e := List.foldl_append

/-- **Every sample is in one window**, in the order of the history. -/
theorem windows_flatten (events : List (Event σ)) :
    (windows events).closed.flatten ++ (windows events).current = events.filterMap Event.sample? := by
  induction events using List.reverseRecOn with
  | nil => rfl
  | append_singleton events e ih =>
    rw [windows_append_singleton, List.filterMap_append, ← ih]
    cases e with
    | sample x => exact (List.append_assoc _ _ _).symm
    | reading =>
      show (List.flatten (_ ++ [_])) ++ [] = _
      rw [List.flatten_append, List.flatten_singleton]
      rfl

theorem length_current_le (events : List (Event σ)) : (windows events).current.length ≤ events.length := by
  have hlength := congrArg List.length (windows_flatten events)
  have hle := List.length_filterMap_le Event.sample? events
  rw [List.length_append] at hlength
  omega

variable (m : Meter σ γ ρ)

def new : State γ ρ := ⟨m.zero, none⟩

def step (s : State γ ρ) : Event σ → State γ ρ
  | .sample x => { s with total := m.add s.total x }
  | .reading => if m.pending s.total then ⟨m.zero, some (m.summary s.total)⟩ else s

def run (events : List (Event σ)) : State γ ρ := events.foldl m.step m.new

/-- What some samples add up to. -/
def total (samples : List σ) : γ := samples.foldl m.add m.zero

variable {m}

/-- **What a meter holds and shows**, as long as up to `limit` samples it can tell whether there are any. -/
theorem run_eq {limit : ℕ} (hpending : ∀ samples : List σ, samples.length ≤ limit →
      (m.pending (m.total samples) = true ↔ samples ≠ []))
    {events : List (Event σ)} (hlimit : events.length ≤ limit) :
    m.run events = ⟨m.total (windows events).current,
      (windows events).last.map (fun samples => m.summary (m.total samples))⟩ := by
  induction events using List.reverseRecOn with
  | nil => rfl
  | append_singleton events e ih =>
    rw [List.length_append, List.length_singleton] at hlimit
    have hrun : m.run (events ++ [e]) = m.step (m.run events) e := List.foldl_append
    have hcurrent := Nat.le_trans (length_current_le events) (show events.length ≤ limit by omega)
    rw [hrun, ih (by omega), windows_append_singleton]
    cases e with
    | sample x =>
      have htotal : m.total ((windows events).current ++ [x]) = m.add (m.total (windows events).current) x :=
        List.foldl_append
      show State.mk _ _ = State.mk (m.total ((windows events).current ++ [x])) _
      rw [htotal]
      rfl
    | reading =>
      have hlast : ((windows events).step .reading).last =
          if (windows events).current = [] then (windows events).last else some (windows events).current := by
        show (List.filter _ ((windows events).closed ++ [(windows events).current])).getLast? = _
        rw [List.filter_append]
        cases hsamples : (windows events).current with
        | nil =>
          rw [if_pos rfl, List.filter_cons_of_neg (by simp), List.filter_nil, List.append_nil]
          rfl
        | cons x samples =>
          rw [if_neg (List.cons_ne_nil _ _), List.filter_cons_of_pos (by simp), List.filter_nil, List.getLast?_concat]
      rw [hlast]
      by_cases hnil : (windows events).current = []
      · have hidle : ¬ m.pending (m.total (windows events).current) = true := by
          rw [hpending _ hcurrent]
          exact fun h => h hnil
        rw [if_pos hnil]
        show (if m.pending (m.total (windows events).current) then _ else _) = _
        rw [if_neg hidle, hnil]
        rfl
      · have hbusy : m.pending (m.total (windows events).current) = true := (hpending _ hcurrent).mpr hnil
        rw [if_neg hnil]
        show (if m.pending (m.total (windows events).current) then _ else _) = _
        rw [if_pos hbusy]
        rfl

end Meter
