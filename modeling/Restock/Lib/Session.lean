/-
# Database sessions

A session has what is stored and what it sees itself: the stored state with its own
writes. Committing stores what it sees, rolling back forgets the writes. A request that
returns ends with a commit, one that fails with a rollback (`close`).
-/
import Mathlib

structure Session (σ : Type*) where
  stored : σ
  current : σ

namespace Session

variable {σ ε α : Type*}

/-- A session that has written nothing. -/
def opened (state : σ) : Session σ := ⟨state, state⟩

def write (s : Session σ) (f : σ → σ) : Session σ := { s with current := f s.current }

def commit (s : Session σ) : Session σ := ⟨s.current, s.current⟩

def rollback (s : Session σ) : Session σ := ⟨s.stored, s.stored⟩

/-- The end of a request. -/
def close : Except ε α × Session σ → Session σ
  | (.ok _, s) => s.commit
  | (.error _, s) => s.rollback

@[simp] theorem stored_opened (state : σ) : (opened state).stored = state := rfl

@[simp] theorem current_opened (state : σ) : (opened state).current = state := rfl

@[simp] theorem stored_write (s : Session σ) (f : σ → σ) : (s.write f).stored = s.stored := rfl

@[simp] theorem current_write (s : Session σ) (f : σ → σ) : (s.write f).current = f s.current := rfl

@[simp] theorem stored_commit (s : Session σ) : s.commit.stored = s.current := rfl

@[simp] theorem current_commit (s : Session σ) : s.commit.current = s.current := rfl

@[simp] theorem stored_rollback (s : Session σ) : s.rollback.stored = s.stored := rfl

@[simp] theorem current_rollback (s : Session σ) : s.rollback.current = s.stored := rfl

@[simp] theorem close_ok (a : α) (s : Session σ) : close ((.ok a : Except ε α), s) = s.commit := rfl

@[simp] theorem close_error (e : ε) (s : Session σ) :
    close ((.error e : Except ε α), s) = s.rollback := rfl

end Session
