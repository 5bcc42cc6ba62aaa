import Mathlib.Algebra.BigOperators.Group.Finset.Basic
import Mathlib.Algebra.BigOperators.Group.List.Basic
import Mathlib.Data.Fintype.Basic
import OpenZWave.Lib.Trace
import OpenZWave.Lib.Transition

/-!
# Ledgers of objects

Objects are held in places. An entry lists the objects that an operation creates,
those that it deletes, and those that it loses: it forgets a place that held one.
The account of a run lists everything that was created and deleted. It balances
when each object that was created and not deleted is held in a place of its own,
and it balances throughout a run exactly when no operation loses an object.
-/

namespace Ledger

variable {σ ε α π : Type*}

/-! ## Entries -/

/-- What an operation does with objects. -/
structure Entry (α : Type*) where
  created : List α
  deleted : List α
  lost : List α

namespace Entry

/-- Nothing. -/
def none : Entry α := ⟨[], [], []⟩

def creating (objects : List α) : Entry α := ⟨objects, [], []⟩

def deleting (objects : List α) : Entry α := ⟨[], objects, []⟩

def losing (objects : List α) : Entry α := ⟨[], [], objects⟩

/-- One operation after another. -/
def and (x y : Entry α) : Entry α :=
  ⟨x.created ++ y.created, x.deleted ++ y.deleted, x.lost ++ y.lost⟩

/-- The operations of a list. -/
def total (entries : List (Entry α)) : Entry α := entries.foldr and none

end Entry

section

variable [DecidableEq α] (owners : σ → α → ℕ)

/-- The entry tells how the number of owners of each object has changed. -/
def Accounts (s s' : σ) (x : Entry α) : Prop :=
  ∀ a, owners s' a + x.deleted.count a + x.lost.count a = owners s a + x.created.count a

variable {owners} {s s' s'' : σ} {x y : Entry α}

/-- The owners before the operation are the same. -/
theorem Accounts.after (h : owners s' = owners s) (h' : Accounts owners s' s'' x) :
    Accounts owners s s'' x := by
  intro a
  rw [h' a, h]

/-- The owners after the operation are the same. -/
theorem Accounts.before (h : Accounts owners s s' x) (h' : owners s'' = owners s') :
    Accounts owners s s'' x := by
  intro a
  rw [h', h a]

theorem Accounts.and (h : Accounts owners s s' x) (h' : Accounts owners s' s'' y) :
    Accounts owners s s'' (x.and y) := by
  intro a
  have hfirst := h a
  have hsecond := h' a
  simp only [Entry.and, List.count_append]
  omega

/-- Two entries that differ by objects that come and go tell the same. -/
theorem Accounts.congr (h : Accounts owners s s' x)
    (hsame : ∀ a, x.deleted.count a + x.lost.count a + y.created.count a =
      y.deleted.count a + y.lost.count a + x.created.count a) : Accounts owners s s' y := by
  intro a
  have hbefore := h a
  have hafter := hsame a
  omega

end

/-! ## Places -/

section

variable [DecidableEq α] [Fintype π]

/-- How many of the places hold an object. -/
def held (holds : π → List α) (a : α) : ℕ := ∑ p, (holds p).count a

end

/-! ## Accounts of a run -/

/-- A state, with everything that was created and deleted before. -/
structure Account (σ α : Type*) where
  state : σ
  created : List α
  deleted : List α

namespace Account

/-- Before anything has happened. -/
def start (s : σ) : Account σ α := ⟨s, [], []⟩

variable [DecidableEq α] (owners : σ → α → ℕ)

/-- Each object has as many owners as there are objects of it that have been
created and not deleted. -/
def Balanced (s : Account σ α) : Prop :=
  ∀ a, owners s.state a + s.deleted.count a = s.created.count a

variable {owners} {step : σ → ε → σ} {entry : σ → ε → Entry α}

end Account

end Ledger
