import ChatClient.Connection.Backoff
import Mathlib.Algebra.Group.Nat.Defs
import Mathlib.Tactic.Common

/-!
# How far the wait is doubled

The wait before the attempt with number `n` is meant to be the first one times `2 ^ n`, or the limit
if that is shorter. It is computed in numbers that end somewhere, and there are two places where
they can end. A product that is too long for a wait is longer than every limit, so that there the
limit is right. A factor has 32 bits, and from attempt 32 on there is none, whatever the product
would be. Then the limit is waited for, even if 32 doublings of the first wait have not come up to
it. With a first wait of nothing they never do: all waits should be nothing, and after 32 failures
the longest one is made.

## Main results

* `delay_of_lt`: as long as there is a factor, the wait is the one that is meant
* `delay_of_le`: afterwards it is the limit
* `delay_mono`: later attempts never wait for less
* `delay_eq_min_iff`: for which attempts, and with which settings for all of them, the wait is the
  one that is meant
-/

namespace ChatClient

namespace Backoff

variable {b : Backoff} {n : UInt32}

private theorem delay_eq_ite (early : n.toNat < doublings) :
    b.delay n =
      if b.base * 2 ^ n.toNat < tooLong then min (b.base * 2 ^ n.toNat) b.limit else b.limit := by
  rw [delay, factor?, if_pos early, Option.bind_some, multiple?, Nat.one_shiftLeft]
  by_cases short : b.base * 2 ^ n.toNat < tooLong
  · rw [if_pos short, if_pos short]
  · rw [if_neg short, if_neg short]

/-- A multiple that is too long is longer than the limit, so that the limit is the shorter of
both. -/
theorem delay_of_lt (representable : b.limit < tooLong) (early : n.toNat < doublings) :
    b.delay n = min (b.base * 2 ^ n.toNat) b.limit := by
  rw [delay_eq_ite early]
  by_cases short : b.base * 2 ^ n.toNat < tooLong
  · rw [if_pos short]
  · rw [if_neg short]
    have beyond := Nat.le_trans (Nat.le_of_lt representable) (Nat.le_of_not_lt short)
    exact (Nat.min_eq_right beyond).symm

/-- So many attempts wait for as long as any do. -/
theorem delay_of_le (late : doublings ≤ n.toNat) : b.delay n = b.limit := by
  rw [delay, factor?, if_neg (Nat.not_lt.mpr late)]
  rfl

/-- A later attempt waits for as long as an earlier one or for longer, whatever the first wait and
the limit are. -/
theorem delay_mono (b : Backoff) {n' : UInt32} (le : n ≤ n') : b.delay n ≤ b.delay n' := by
  have le' : n.toNat ≤ n'.toNat := UInt32.le_iff_toNat_le.1 le
  by_cases early' : n'.toNat < doublings
  · have early : n.toNat < doublings := Nat.lt_of_le_of_lt le' early'
    have grows : b.base * 2 ^ n.toNat ≤ b.base * 2 ^ n'.toNat :=
      Nat.mul_le_mul_left _ (Nat.pow_le_pow_right Nat.two_pos le')
    rw [delay_eq_ite early']
    by_cases short : b.base * 2 ^ n'.toNat < tooLong
    · rw [delay_eq_ite early, if_pos (Nat.lt_of_le_of_lt grows short), if_pos short]
      omega
    · rw [if_neg short]
      exact b.delay_le n
  -- Without a factor there is no longer wait than the limit.
  · rw [delay_of_le (Nat.le_of_not_lt early')]
    exact b.delay_le n

/-- The wait is the first one times a power of two, or the limit if that is shorter, exactly before
the first 32 attempts and those for which the limit is the shorter one. It is so before every
attempt exactly if the limit is reached within 32 doublings. Otherwise the limit is waited for
although it is longer. -/
theorem delay_eq_min_iff (b : Backoff) (representable : b.limit < tooLong) :
    (∀ n : UInt32, b.delay n = min (b.base * 2 ^ n.toNat) b.limit ↔
        n.toNat < 32 ∨ b.limit ≤ b.base * 2 ^ n.toNat) ∧
      ((∀ n : UInt32, b.delay n = min (b.base * 2 ^ n.toNat) b.limit) ↔
        b.limit ≤ b.base * 2 ^ 32) ∧
      ∀ n : UInt32, b.delay n ≠ min (b.base * 2 ^ n.toNat) b.limit →
        b.delay n = b.limit ∧ b.base * 2 ^ n.toNat < b.limit := by
  have single (n : UInt32) : b.delay n = min (b.base * 2 ^ n.toNat) b.limit ↔
      n.toNat < 32 ∨ b.limit ≤ b.base * 2 ^ n.toNat := by
    by_cases early : n.toNat < 32
    · exact iff_of_true (delay_of_lt representable early) (.inl early)
    · rw [delay_of_le (Nat.le_of_not_lt early)]
      omega
  refine ⟨single, ⟨fun always => ?_, fun reached n => ?_⟩, fun n differs => ?_⟩
  · -- The first attempt without a factor decides.
    simpa using (single 32).mp (always 32)
  · refine (single n).mpr (Nat.lt_or_ge n.toNat 32 |>.imp_right fun late => ?_)
    calc b.limit ≤ b.base * 2 ^ 32 := reached
      _ ≤ b.base * 2 ^ n.toNat := Nat.mul_le_mul_left _ (Nat.pow_le_pow_right Nat.two_pos late)
  · rw [ne_eq, single, not_or, Nat.not_lt, Nat.not_le] at differs
    exact ⟨delay_of_le differs.1, differs.2⟩

end Backoff

/-! ### A detour

The client is to wait for nothing at first, and as long as it can at last. -/

namespace Detour

def eager : Backoff := { base := 0, limit := 30000 }

def patient : Backoff := { base := 1, limit := 2 ^ 64 - 1 }

end Detour

theorem delay_eq_min_iff_detour :
    Detour.patient.limit < Backoff.tooLong ∧
      Detour.patient.delay 31 =
        min (Detour.patient.base * 2 ^ (31 : UInt32).toNat) Detour.patient.limit ∧
      Detour.patient.delay 32 = Detour.patient.limit ∧
      ¬ ∀ n : UInt32,
        Detour.patient.delay n = min (Detour.patient.base * 2 ^ n.toNat) Detour.patient.limit := by
  have representable : Detour.patient.limit < Backoff.tooLong := by decide
  obtain ⟨single, always, -⟩ := Backoff.delay_eq_min_iff Detour.patient representable
  exact ⟨representable, (single 31).mpr (.inl (by decide)), by decide,
    fun meant => absurd (always.mp meant) (by decide)⟩

/-- Nothing is doubled 32 times and becomes half a minute. -/
theorem leaps_detour :
    Detour.eager.delay 31 = 0 ∧ Detour.eager.delay 32 = 30000 ∧
      min (Detour.eager.base * 2 ^ (32 : UInt32).toNat) Detour.eager.limit = 0 := by
  decide

end ChatClient
