import Mathlib.Logic.Basic

/-!
# Programs whose state survives what they raise

A statement-level program: it reads and assigns a state and may raise, and an exception does not undo what was
assigned before it. Running a program gives its outcome together with the state it leaves.

The `run_*` lemmas execute a program one statement at a time.
-/

/-- A program with state `σ` that may raise `ε`. -/
def Stateful (ε σ α : Type) : Type := σ → Except ε α × σ

namespace Stateful

variable {ε σ τ α β : Type}

/-- The outcome of a program and the state it leaves. -/
def run (p : Stateful ε σ α) (s : σ) : Except ε α × σ := p s

instance : Monad (Stateful ε σ) where
  pure a := fun s => (.ok a, s)
  bind p f := fun s =>
    match p s with
    | (.ok a, s') => f a s'
    | (.error e, s') => (.error e, s')

/-- The state as it is. -/
def self : Stateful ε σ σ := fun s => (.ok s, s)

def assign (f : σ → σ) : Stateful ε σ Unit := fun s => (.ok (), f s)

/-- A computation that has nothing to do with the state. -/
def ofExcept (x : Except ε α) : Stateful ε σ α := fun s => (x, s)

def raise (e : ε) : Stateful ε σ α := ofExcept (.error e)

/-- `before`, the body, and `after` whatever the outcome of the body. -/
def bracket (before after : σ → σ) (body : Stateful ε σ α) : Stateful ε σ α :=
  fun s => ((body.run (before s)).1, after (body.run (before s)).2)

/-- A program on a part of the state. -/
def onPart (part : σ → τ) (put : σ → τ → σ) (body : Stateful ε τ α) : Stateful ε σ α :=
  fun s => ((body.run (part s)).1, put s (body.run (part s)).2)

@[simp] theorem run_pure (a : α) (s : σ) : (pure a : Stateful ε σ α).run s = (.ok a, s) := rfl

@[simp] theorem run_self_bind (f : σ → Stateful ε σ β) (s : σ) : (self >>= f).run s = (f s).run s := rfl

@[simp] theorem run_assign (g : σ → σ) (s : σ) : (assign g : Stateful ε σ Unit).run s = (.ok (), g s) := rfl

@[simp] theorem run_assign_bind (g : σ → σ) (f : Unit → Stateful ε σ β) (s : σ) :
    (assign g >>= f).run s = (f ()).run (g s) := rfl

@[simp] theorem run_ok_bind (a : α) (f : α → Stateful ε σ β) (s : σ) : (ofExcept (.ok a) >>= f).run s = (f a).run s := rfl

theorem run_onPart (part : σ → τ) (put : σ → τ → σ) (body : Stateful ε τ α) (s : σ) :
    (onPart part put body).run s = ((body.run (part s)).1, put s (body.run (part s)).2) := rfl

theorem run_bracket (before after : σ → σ) (body : Stateful ε σ α) (s : σ) :
    (bracket before after body).run s = ((body.run (before s)).1, after (body.run (before s)).2) := rfl

theorem run_bind_of_ok {p : Stateful ε σ α} {s s' : σ} {a : α} (h : p.run s = (.ok a, s')) (f : α → Stateful ε σ β) :
    (p >>= f).run s = (f a).run s' := by
  show (match p.run s with | (.ok a, s') => f a s' | (.error e, s') => (.error e, s')) = _
  rw [h]
  rfl

theorem run_bind_of_error {p : Stateful ε σ α} {s s' : σ} {e : ε} (h : p.run s = (.error e, s'))
    (f : α → Stateful ε σ β) : (p >>= f).run s = (.error e, s') := by
  show (match p.run s with | (.ok a, s') => f a s' | (.error e, s') => (.error e, s')) = _
  rw [h]

end Stateful
