import WinVpwn.Cpu.MapElf
import WinVpwn.Python.RunElf

/-!
# The time limit on its way to the engine

The `--timeout` of a run is in milliseconds, the third argument of `emu_start` in
microseconds with 0 for no limit. Between the two the value is truncated and passed
on, and its unit is not changed.
-/

namespace WinVpwn.Python
open Rust WinVpwn.Elf WinVpwn.Cpu WinVpwn.Syscall WinVpwn.Vkernel

section Finish
variable {U : Type} [Unicorn U]

/-- `run_elf` from `emu_start` on, with an engine that behaves as `e`. -/
def finish (v : Vcpu U) (e : Execution U) : Outcome PyErr RunReport :=
  match Vcpu.emulate e v with
  | (.ok status, v') => do
    let reason ← (v'.verdict status).mapErr toErr
    return report v' reason
  | (.err e, _) => .err (toErr e)
  | (.fault p, _) => .fault p

theorem ready_emuStart (h : Host U) (emuStart : EmuCall → U → Execution U) (image : Image) :
    ready { h with emuStart := emuStart } image = ready h image := rfl

theorem runElf_eq (h : Host U) (image : Image) (timeoutMs : U64) :
    runElf h image timeoutMs =
      (ready h image >>= fun v => finish v (v.execution timeoutMs h.emuStart)) := by
  unfold runElf
  congr 1
  funext v
  unfold finish
  rw [Vcpu.run_eq]
  rcases Vcpu.emulate (v.execution timeoutMs h.emuStart) v with ⟨status | e | p, v'⟩
  · rfl
  · rfl
  · rfl

end Finish

/-- Every run with the timeout `t` starts the engine with the limit `limit`. -/
def HandsOver (t : ℚ) (limit : U64) : Prop :=
  ∀ (U : Type) [Unicorn U] (h : Host U) (image : Image), runCommand h image t =
    (ready h image >>= fun v =>
      finish v (h.emuStart ⟨regReadOrZero v.uc .RIP, 0xffffffffffffffff, limit, 0⟩ v.uc))

/-- The engine gets the limit asked for: none for 0, and otherwise `t` milliseconds in
microseconds, up to rounding. -/
def LimitIntact (t : ℚ) : Prop :=
  ∃ limit, HandsOver t limit ∧ (limit = 0 ↔ t = 0)
    ∧ (t ≠ 0 → |(limit.toNat : ℚ) - 1000 * t| < 1)

/-! ### The limit handed over -/

theorem int_of_nonneg {t : ℚ} (ht : 0 ≤ t) : int t = t.floor := if_neg (not_lt.mpr ht)

theorem handsOver_of_toU64 {t : ℚ} {limit : U64} (h : toU64 (int t) = .ok limit) :
    HandsOver t limit := by
  intro U _ host image
  unfold runCommand
  rw [h]
  exact runElf_eq host image limit

def limitedHost (limit : U64) : Host FlatEngine where
  build := .debug
  parse := fun _ => .ok twoPages.parsed
  newEngine := .ok FlatEngine.new
  emuStart := fun call e => .done e (.error (if call.timeout = limit then "READ_UNMAPPED" else ""))

theorem limitedHost_ready (limit : U64) : ∃ v, ready (limitedHost limit) twoPagesImage = .ok v := by
  have hsame : ready (limitedHost limit) twoPagesImage = ready (limitedHost 0) twoPagesImage :=
    ready_emuStart (limitedHost 0) _ twoPagesImage
  have hok : (ready (limitedHost 0) twoPagesImage).isOk = true := by decide +kernel
  rw [hsame]
  cases hrun : ready (limitedHost 0) twoPagesImage with
  | ok v => exact ⟨v, rfl⟩
  | err e =>
    rw [hrun] at hok
    cases hok
  | fault p =>
    rw [hrun] at hok
    cases hok

theorem handsOver_unique {t : ℚ} {limit limit' : U64} (h : HandsOver t limit)
    (h' : HandsOver t limit') : limit = limit' := by
  by_contra hne
  obtain ⟨v, hready⟩ := limitedHost_ready limit
  have hsame := (h FlatEngine (limitedHost limit) twoPagesImage).symm.trans
    (h' FlatEngine (limitedHost limit) twoPagesImage)
  rw [hready, Outcome.ok_bind, Outcome.ok_bind] at hsame
  simp only [limitedHost, if_true, if_neg (Ne.symm hne)] at hsame
  cases hsame

theorem not_handsOver_of_toU64 {t : ℚ} {e : PyErr} (h : toU64 (int t) = .err e)
    (limit : U64) : ¬HandsOver t limit := by
  intro hover
  obtain ⟨v, hready⟩ := limitedHost_ready limit
  have hrun := hover FlatEngine (limitedHost limit) twoPagesImage
  unfold runCommand at hrun
  rw [h, hready, Outcome.err_bind, Outcome.ok_bind] at hrun
  simp only [limitedHost, if_true] at hrun
  cases hrun

/- The value that arrives is the timeout, truncated; from 2^64 on none arrives. -/
theorem handsOver_value {t : ℚ} (ht : 0 ≤ t) {limit : U64} (h : HandsOver t limit) :
    (limit.toNat : ℤ) = t.floor := by
  have hfloor : 0 ≤ t.floor := Rat.le_floor_iff.mpr ht
  cases hconv : toU64 (int t) with
  | ok value =>
    obtain rfl := handsOver_unique h (handsOver_of_toU64 hconv)
    unfold toU64 at hconv
    rw [int_of_nonneg ht] at hconv
    split at hconv
    next hin =>
      cases hconv
      rw [BitVec.toNat_ofInt]
      omega
    next => cases hconv
  | err e => exact absurd h (not_handsOver_of_toU64 hconv limit)
  | fault p =>
    unfold toU64 at hconv
    split at hconv
    · cases hconv
    · cases hconv

/-- A requested time limit reaches the engine intact only when it is no limit. -/
theorem limitIntact_iff (t : ℚ) (ht : 0 ≤ t) : LimitIntact t ↔ t = 0 := by
  constructor
  · intro h
    obtain ⟨limit, hover, hzero, hnear⟩ := h
    by_contra hne
    have hvalue : (limit.toNat : ℚ) = t.floor := by
      exact_mod_cast handsOver_value ht hover
    have hle : (limit.toNat : ℚ) ≤ t := hvalue ▸ Rat.floor_le t
    -- a limit that is not 0 is at least 1, and then `1000 * t` is too far from it
    have hpos : 1 ≤ limit.toNat := BitVec.toNat_pos_of_ne_zero fun h => hne (hzero.mp h)
    have hone : (1 : ℚ) ≤ limit.toNat := by exact_mod_cast hpos
    have hlow := (abs_lt.mp (hnear hne)).1
    linarith
  · rintro rfl
    exact ⟨0, handsOver_of_toU64 rfl, by simp, fun h => absurd rfl h⟩

theorem zero_intact : LimitIntact 0 := (limitIntact_iff 0 (le_refl 0)).mpr rfl

/- 100 milliseconds become 100 microseconds. -/
theorem hundred_ms_scaled : HandsOver 100 100 ∧ ¬LimitIntact 100 := by
  have hhanded : HandsOver 100 100 := handsOver_of_toU64 (by decide +kernel)
  refine ⟨hhanded, ?_⟩
  intro h
  obtain ⟨limit, hover, -, hnear⟩ := h
  have hvalue : (100 : U64).toNat = 100 := rfl
  rw [handsOver_unique hover hhanded, hvalue] at hnear
  have hfar := hnear (by norm_num)
  norm_num at hfar

end WinVpwn.Python
