import NodeLink.Icon.Symbol
import NodeLink.Proofs.Text.Digits
import Mathlib.Algebra.Group.Int.Defs

/-!
# Ids of symbols

The id of a symbol tells its address only up to the sign of a number modulo 2 ^ 32. Addresses that agree
that far clash: their symbols get the same id.
-/

namespace NodeLink.Symbol

open NodeLink.Text

/-- The number that the codes of an address are the digits of, to the base 31. -/
def number (uri : List Char) : Nat := uri.foldl (fun n c => n * 31 + codeOf c) 0

def Clash (uri uri' : List Char) : Prop :=
  (2 ^ 32 : Int) ∣ number uri - number uri' ∨ (2 ^ 32 : Int) ∣ number uri + number uri'

theorem foldl_hashStep (uri : List Char) (n : Nat) :
    uri.foldl hashStep (n % 2 ^ 32) = uri.foldl (fun n c => n * 31 + codeOf c) n % 2 ^ 32 := by
  induction uri generalizing n with
  | nil => rfl
  | cons c uri ih =>
    have hstep : hashStep (n % 2 ^ 32) c = (n * 31 + codeOf c) % 2 ^ 32 := by
      have hpow : Nat.pow 2 32 = 2 ^ 32 := rfl
      rw [hashStep, hpow]
      omega
    rw [List.foldl_cons, List.foldl_cons, hstep, ih]

theorem hash_eq (uri : List Char) :
    hash uri =
      if number uri % 2 ^ 32 < 2 ^ 31 then number uri % 2 ^ 32 else 2 ^ 32 - number uri % 2 ^ 32 := by
  have hfold : uri.foldl hashStep 0 = number uri % 2 ^ 32 := foldl_hashStep uri 0
  rw [hash, hfold]
  rfl

theorem hash_eq_iff {uri uri' : List Char} : hash uri = hash uri' ↔ Clash uri uri' := by
  rw [hash_eq, hash_eq, Clash]
  generalize number uri = n, number uri' = m
  split <;> split <;> omega

theorem idOf_eq_iff {uri uri' : List Char} : idOf uri = idOf uri' ↔ Clash uri uri' := by
  rw [← hash_eq_iff]
  constructor
  · intro h
    have hdigits : digitsOf (hash uri) = digitsOf (hash uri') := List.append_cancel_left h
    rw [← digitsValue_digitsOf (hash uri), hdigits, digitsValue_digitsOf]
  · intro h
    rw [idOf, idOf, h]

/-- The ids of two short addresses that differ. -/
example : Clash ['A', 'a'] ['B', 'B'] ∧ ¬ Clash ['A', 'a'] ['B', 'b'] := by
  rw [← hash_eq_iff, ← hash_eq_iff]
  decide

end NodeLink.Symbol
