import Mathlib

/-!
# Integer arithmetic in the builds of a Rust program

A value of an integer type is an integer. What an operator or a cast makes of its exact result, by
its type, is up to a `Build`, over which a function is written: `release` wraps around, `debug`
panics where an operator overflows, and `lossless` stops wherever a result does not fit, at a cast
too. A run of `lossless` that does not stop says that nothing overflowed and no cast lost anything.
Where all results fit, the builds agree with exact arithmetic (`Build.Exact`).
-/

namespace Rust

/-- The integer types of Rust that the program computes with. -/
inductive IntTy
  | i32
  | u32
  | i64
  | u64

namespace IntTy

/-- The width of the type in bits. -/
def bits : IntTy → Nat
  | .i32 | .u32 => 32
  | .i64 | .u64 => 64

/-- The least value of the type, which is 0 for the unsigned ones. -/
def lo : IntTy → Int
  | .i32 => -2 ^ 31
  | .i64 => -2 ^ 63
  | .u32 | .u64 => 0

/-- The integers that are values of the type. -/
def Fits (t : IntTy) (n : Int) : Prop := t.lo ≤ n ∧ n < t.lo + 2 ^ t.bits

instance (t : IntTy) (n : Int) : Decidable (t.Fits n) := inferInstanceAs (Decidable (_ ∧ _))

/-- A number from 0 to the greatest `i32` is a value of every type. -/
theorem fits_of_lt {n : Int} (t : IntTy) (h0 : 0 ≤ n) (h : n < 2147483648) : t.Fits n := by
  rw [Fits]
  cases t with
  | i32 | u32 | i64 | u64 => exact ⟨by rw [lo]; omega, by rw [lo, bits]; omega⟩

/-- The range of an `i32`, in numbers that `omega` can use. -/
theorem fits_i32 {n : Int} :
    IntTy.i32.Fits n ↔ -2147483648 ≤ n ∧ n < 2147483648 := Iff.rfl

/-- The range of an `i64`, in numbers that `omega` can use. -/
theorem fits_i64 {n : Int} :
    IntTy.i64.Fits n ↔ -9223372036854775808 ≤ n ∧ n < 9223372036854775808 := Iff.rfl

/-- The value that `n` is congruent to modulo `2 ^ bits`. -/
def wrap (t : IntTy) (n : Int) : Int := t.lo + (n - t.lo) % 2 ^ t.bits

/-- A number that fits is not changed by wrapping. -/
theorem wrap_of_fits {t : IntTy} {n : Int} (h : t.Fits n) : t.wrap n = n := by
  obtain ⟨hlo, hhi⟩ := h
  rw [wrap, Int.emod_eq_of_lt (by omega) (by omega)]
  omega

/-- The number, if it is a value of the type. -/
def check (t : IntTy) (n : Int) : Option Int := if t.Fits n then some n else none

/-- A number that fits passes the check unchanged. -/
theorem check_of_fits {t : IntTy} {n : Int} (h : t.Fits n) : t.check n = some n := if_pos h

end IntTy

/-- The value of an operator and of an `as`, from the exact result. -/
structure Build (m : Type → Type) where
  op : IntTy → Int → m Int
  cast : IntTy → Int → m Int

namespace Build

/-- A release build: results of operations and of casts wrap. -/
def release : Build Id where
  op t n := pure (t.wrap n)
  cast t n := pure (t.wrap n)

/-- A debug build: an operation that overflows panics, and a cast wraps as it does in a release
build. -/
def debug : Build Option where
  op := IntTy.check
  cast t n := some (t.wrap n)

/-- A build in which a cast that loses bits fails too. What runs through here loses none
anywhere. -/
def lossless : Build Option where
  op := IntTy.check
  cast := IntTy.check

variable {m : Type → Type} [Monad m] {B : Build m}

/-- Nothing happens to results that fit: neither operations nor casts change or lose them. -/
structure Exact (B : Build m) : Prop where
  op : ∀ {t : IntTy} {n : Int}, t.Fits n → B.op t n = pure n
  cast : ∀ {t : IntTy} {n : Int}, t.Fits n → B.cast t n = pure n

/-- A release build computes the number when it fits. -/
theorem exact_release : Exact release where
  op h := congrArg pure (IntTy.wrap_of_fits h)
  cast h := congrArg pure (IntTy.wrap_of_fits h)

/-- A debug build computes the number when it fits, and does not panic. -/
theorem exact_debug : Exact debug where
  op := IntTy.check_of_fits
  cast h := congrArg some (IntTy.wrap_of_fits h)

/-- A build that checks its casts computes the number when it fits, and does not fail. -/
theorem exact_lossless : Exact lossless where
  op := IntTy.check_of_fits
  cast := IntTy.check_of_fits

variable [LawfulMonad m] {α : Type} {t : IntTy} {n : Int}

/-- In an exact build, an operation whose result fits goes on with this result. -/
theorem Exact.op_bind (hB : B.Exact) (f : Int → m α) (h : t.Fits n) : B.op t n >>= f = f n := by
  rw [hB.op h, pure_bind]

/-- In an exact build, a cast of a number that fits goes on with this number. -/
theorem Exact.cast_bind (hB : B.Exact) (f : Int → m α) (h : t.Fits n) :
    B.cast t n >>= f = f n := by
  rw [hB.cast h, pure_bind]

end Build

end Rust
