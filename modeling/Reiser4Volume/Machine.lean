import Mathlib.Data.List.Basic
import Mathlib.Tactic.Ring

/-! The C machine the distribution core runs on: unsigned arithmetic that wraps,
arrays whose accesses may fall outside their allocation, `for` loops, and an
allocator that may return `NULL`. Undefined behaviour stops the model with a
`Fault`; error codes the code returns are ordinary results. -/

namespace Reiser4Volume

/-- What the model reports instead of continuing past undefined behaviour. -/
inductive Fault where
  | outOfBounds
  | nullDeref
  | divideByZero
  | badShift
  /-- An `assert` of a debug build fails and the kernel stops with `BUG()`. -/
  | assertion
  deriving DecidableEq, Repr

/-- Outcomes compare by value, so that runs of the model can be checked by `decide`. -/
instance decEqExcept {ε α : Type} [DecidableEq ε] [DecidableEq α] : DecidableEq (Except ε α)
  | .ok a, .ok b => decidable_of_iff (a = b) (by simp)
  | .error a, .error b => decidable_of_iff (a = b) (by simp)
  | .ok _, .error _ => isFalse (by simp)
  | .error _, .ok _ => isFalse (by simp)

def EPERM : Int := 1
def EFAULT : Int := 14
def ENOMEM : Int := 12
def EBUSY : Int := 16
def EINVAL : Int := 22
def ENOTTY : Int := 25
def ENOSPC : Int := 28

/-- The value a `w`-bit unsigned variable holds after storing `x`. -/
def wrap (w x : Nat) : Nat := x % 2 ^ w

/-- `a - b` on `w`-bit unsigned operands. -/
def subWrap (w a b : Nat) : Nat := (a + (2 ^ w - b % 2 ^ w)) % 2 ^ w

theorem wrap_of_lt {w x : Nat} (small : x < 2 ^ w) : wrap w x = x := Nat.mod_eq_of_lt small

theorem wrap_lt (w x : Nat) : wrap w x < 2 ^ w := Nat.mod_lt _ (Nat.two_pow_pos w)

theorem subWrap_of_le {w a b : Nat} (le : b ≤ a) (small : a < 2 ^ w) : subWrap w a b = a - b := by
  have pos := Nat.two_pow_pos w
  unfold subWrap
  rw [Nat.mod_eq_of_lt (by omega : b < 2 ^ w)]
  rw [show a + (2 ^ w - b) = (a - b) + 2 ^ w by omega, Nat.add_mod_right]
  exact Nat.mod_eq_of_lt (by omega)

theorem subWrap_of_lt {w a b : Nat} (lt : a < b) (small : b < 2 ^ w) :
    subWrap w a b = 2 ^ w - (b - a) := by
  unfold subWrap
  rw [Nat.mod_eq_of_lt small, Nat.mod_eq_of_lt (by omega)]
  omega

/-- `1 << bits` for an unsigned shift amount: shifting by 32 or more is
undefined. -/
def shl1 (bits : Nat) : Except Fault Nat :=
  if bits < 32 then .ok (wrap 32 (2 ^ bits)) else .error .badShift

/-- `1 << bits` for an `int` shift amount: a negative amount is undefined too. -/
def shl1Int (bits : Int) : Except Fault Nat :=
  if bits < 0 then .error .badShift else shl1 bits.toNat

@[simp] theorem shl1_of_lt {bits : Nat} (small : bits < 32) : shl1 bits = .ok (2 ^ bits) := by
  have : 2 ^ bits < 2 ^ 32 := Nat.pow_lt_pow_right (by norm_num) small
  simp [shl1, small, wrap_of_lt this]

/-- Read element `i` of an allocation; past its end is undefined. -/
def readAt {α : Type} (a : List α) (i : Nat) : Except Fault α :=
  match a[i]? with
  | some v => .ok v
  | none => .error .outOfBounds

/-- Write element `i` of an allocation; past its end is undefined. -/
def writeAt {α : Type} (a : List α) (i : Nat) (v : α) : Except Fault (List α) :=
  if i < a.length then .ok (a.set i v) else .error .outOfBounds

section Arrays

variable {α : Type} {a : List α} {i : Nat} {v : α}

@[simp] theorem readAt_of_lt (inside : i < a.length) : readAt a i = .ok a[i] := by
  simp [readAt, List.getElem?_eq_getElem inside]

@[simp] theorem readAt_of_le (outside : a.length ≤ i) : readAt a i = .error .outOfBounds := by
  simp [readAt, List.getElem?_eq_none outside]

@[simp] theorem writeAt_of_lt (inside : i < a.length) : writeAt a i v = .ok (a.set i v) := by
  simp [writeAt, inside]

@[simp] theorem writeAt_of_le (outside : a.length ≤ i) : writeAt a i v = .error .outOfBounds := by
  simp [writeAt, Nat.not_lt.mpr outside]

theorem writeAt_append {pre : List α} {r : α} {rest : List α} :
    writeAt (pre ++ r :: rest) pre.length v = .ok (pre ++ v :: rest) := by
  simp [writeAt]

theorem readAt_fault {e : Fault} (read : readAt a i = .error e) : e = .outOfBounds := by
  unfold readAt at read; split at read <;> cases read; rfl

theorem writeAt_fault {e : Fault} (write : writeAt a i v = .error e) : e = .outOfBounds := by
  unfold writeAt at write; split at write <;> cases write; rfl

end Arrays

/-- `for (i = start; i < start + n; i++) s = body(i, s);`, stopping at the
first fault. -/
def forLoop {σ : Type} (body : Nat → σ → Except Fault σ) (start : Nat) : Nat → σ → Except Fault σ
  | 0, s => .ok s
  | n + 1, s =>
    match body start s with
    | .ok s' => forLoop body (start + 1) n s'
    | .error e => .error e

section Loops

variable {σ : Type} {body : Nat → σ → Except Fault σ}

@[simp] theorem forLoop_zero (start : Nat) (s : σ) : forLoop body start 0 s = .ok s := rfl

theorem forLoop_succ (start n : Nat) (s : σ) :
    forLoop body start (n + 1) s =
      match body start s with
      | .ok s' => forLoop body (start + 1) n s'
      | .error e => .error e := rfl

theorem forLoop_add (start m n : Nat) (s : σ) :
    forLoop body start (m + n) s =
      match forLoop body start m s with
      | .ok s' => forLoop body (start + m) n s'
      | .error e => .error e := by
  induction m generalizing start s with
  | zero => simp
  | succ m ih =>
    rw [Nat.succ_add, forLoop_succ, forLoop_succ]
    cases body start s with
    | ok s' => simpa [Nat.add_assoc, Nat.add_comm 1 m] using ih (start + 1) s'
    | error e => rfl

theorem forLoop_inv (P : Nat → σ → Prop) {start n : Nat}
    (step : ∀ i s s', start ≤ i → i < start + n → P i s → body i s = .ok s' → P (i + 1) s')
    {s s' : σ} (init : P start s) (run : forLoop body start n s = .ok s') :
    P (start + n) s' := by
  induction n generalizing start s with
  | zero => cases run; simpa using init
  | succ n ih =>
    rw [forLoop_succ] at run
    cases first : body start s with
    | error e => rw [first] at run; cases run
    | ok t =>
      rw [first] at run
      have next := step start s t le_rfl (by omega) init first
      have rest := ih (fun i s s' low high => step i s s' (by omega) (by omega)) next run
      simpa [Nat.add_assoc, Nat.add_comm 1 n] using rest

theorem forLoop_ok (P : Nat → σ → Prop) {start n : Nat}
    (step : ∀ i s, start ≤ i → i < start + n → P i s → ∃ s', body i s = .ok s' ∧ P (i + 1) s')
    {s : σ} (init : P start s) : ∃ s', forLoop body start n s = .ok s' ∧ P (start + n) s' := by
  induction n generalizing start s with
  | zero => exact ⟨s, rfl, by simpa using init⟩
  | succ n ih =>
    obtain ⟨t, first, next⟩ := step start s le_rfl (by omega) init
    obtain ⟨s', rest, final⟩ := ih (fun i s low high => step i s (by omega) (by omega)) next
    exact ⟨s', by rw [forLoop_succ, first]; exact rest, by rwa [Nat.add_right_comm, Nat.add_assoc] at final⟩

/-- A loop whose every iteration takes the closed form `f i` to `f (i + 1)`
runs from `f start` to `f (start + n)`. -/
theorem forLoop_closed (f : Nat → σ) {start n : Nat}
    (step : ∀ i, start ≤ i → i < start + n → body i (f i) = .ok (f (i + 1))) :
    forLoop body start n (f start) = .ok (f (start + n)) := by
  induction n generalizing start with
  | zero => rfl
  | succ n ih =>
    rw [forLoop_succ, step start le_rfl (by omega)]
    dsimp only
    rw [@ih (start + 1) fun i low high => step i (by omega) (by omega), Nat.add_right_comm, Nat.add_assoc]

theorem forLoop_fault (I : Nat → σ → Prop) (P : Fault → Prop)
    (keep : ∀ i s s', I i s → body i s = .ok s' → I (i + 1) s')
    (fail : ∀ i s e, I i s → body i s = .error e → P e)
    {start n : Nat} {s : σ} {e : Fault} (init : I start s) (run : forLoop body start n s = .error e) : P e := by
  induction n generalizing start s with
  | zero => cases run
  | succ n ih =>
    rw [forLoop_succ] at run
    cases first : body start s with
    | error e' => rw [first] at run; cases run; exact fail _ _ _ init first
    | ok t => rw [first] at run; exact ih (keep _ _ _ init first) run

end Loops

@[simp] theorem ok_bind {ε α β : Type} (x : α) (f : α → Except ε β) : (Except.ok x >>= f) = f x := rfl

@[simp] theorem error_bind {ε α β : Type} (e : ε) (f : α → Except ε β) :
    (Except.error e >>= f) = .error e := rfl

theorem bind_eq_ok {ε α β : Type} {x : Except ε α} {f : α → Except ε β} {b : β} :
    (x >>= f) = .ok b ↔ ∃ a, x = .ok a ∧ f a = .ok b := by
  cases x <;> simp

theorem bind_eq_error {ε α β : Type} {x : Except ε α} {f : α → Except ε β} {e : ε} :
    (x >>= f) = .error e ↔ x = .error e ∨ ∃ a, x = .ok a ∧ f a = .error e := by
  cases x <;> simp

/-- One `fsx32_alloc` / `fsx64_alloc` call against the allocator's outcomes in
program order: `false` is a `NULL` return. Past the recorded outcomes every
allocation succeeds. -/
def allocNext : List Bool → Bool × List Bool
  | [] => (true, [])
  | ok :: rest => (ok, rest)

@[simp] theorem allocNext_nil : allocNext [] = (true, []) := rfl

@[simp] theorem allocNext_cons (ok : Bool) (rest : List Bool) : allocNext (ok :: rest) = (ok, rest) := rfl

end Reiser4Volume
