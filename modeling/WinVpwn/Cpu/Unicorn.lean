import WinVpwn.Lib.AddressSpace
import WinVpwn.Rust.Word

/-!
# The emulator engine as the crate sees it

Unicorn is a dependency, so the engine is a parameter: a type of engine states
with the calls the crate makes. Errors are carried as the text `to_string()`
gives, which is all the crate looks at.

What the results about a running engine rely on is its documented behaviour, as
laws over the address space it shows: mapping takes whole free pages and zeroes
them, reads and writes need every byte mapped and are all or nothing, and the
general registers hold what is written to them. `FlatEngine` is a small engine
that obeys them.
-/

namespace WinVpwn.Cpu
open Rust Lib

/-- `unicorn_const::Prot`. -/
structure Prot where
  read : Bool
  write : Bool
  exec : Bool
  deriving DecidableEq, Repr

namespace Prot

def NONE : Prot := ⟨false, false, false⟩
def READ : Prot := ⟨true, false, false⟩
def WRITE : Prot := ⟨false, true, false⟩
def EXEC : Prot := ⟨false, false, true⟩

instance : OrOp Prot where
  or p q := ⟨p.read || q.read, p.write || q.write, p.exec || q.exec⟩

end Prot

/-- `unicorn_const::RegisterX86`: the registers the crate names, and the rest. -/
inductive RegisterX86 where
  | RAX | RDI | RSI | RDX | R10 | R8 | R9 | RIP | RSP
  | other (id : ℕ)
  deriving DecidableEq, Repr

/-- The calls made on an engine. A read fills a buffer of the length asked for. -/
class Unicorn (U : Type) where
  memMap : U64 → U64 → Prot → U → Except String Unit × U
  memWrite : U64 → List U8 → U → Except String Unit × U
  memRead : U → U64 → (n : ℕ) → Except String (Vector U8 n)
  regRead : U → RegisterX86 → Except String U64
  regWrite : RegisterX86 → U64 → U → Except String Unit × U
  emuStop : U → Except String Unit × U

/-- `uc.reg_read(reg).unwrap_or(0)`. -/
def regReadOrZero {U : Type} [Unicorn U] (uc : U) (r : RegisterX86) : U64 :=
  match Unicorn.regRead uc r with
  | .ok v => v
  | .error _ => 0

/-- An engine call as a step on the engine, its error turned by `f`. -/
def engineCall {U ε α : Type} (f : String → ε) (call : U → Except String α × U) : Act U ε α :=
  fun uc => match call uc with
    | (.ok a, uc') => (.ok a, uc')
    | (.error e, uc') => (.err (f e), uc')

/-! ### What is relied on -/

/-- The page of the engine, and the end of the address space it gives a guest. -/
abbrev pageBytes : ℕ := 0x1000
abbrev addressEnd : ℕ := 2 ^ 64

/-- The 64-bit registers the crate names, none of which overlaps another. -/
def RegisterX86.Named : RegisterX86 → Prop
  | .other _ => False
  | _ => True

class LawfulUnicorn (U : Type) extends Unicorn U where
  space : U → AddressSpace Prot U8
  stopRequested : U → Bool
  memMap_ok_iff (uc : U) (base size : U64) (prot : Prot) :
    (∃ uc', memMap base size prot uc = (.ok (), uc')) ↔
      (space uc).Free pageBytes addressEnd base.toNat size.toNat
  space_memMap {uc uc' : U} {base size : U64} {prot : Prot}
    (h : memMap base size prot uc = (.ok (), uc')) :
    space uc' = (space uc).map base.toNat size.toNat prot
  space_memMap_error {uc uc' : U} {base size : U64} {prot : Prot} {e : String}
    (h : memMap base size prot uc = (.error e, uc')) : space uc' = space uc
  memWrite_ok_iff (uc : U) (addr : U64) (data : List U8) :
    (∃ uc', memWrite addr data uc = (.ok (), uc')) ↔ (space uc).Covers addr.toNat data.length
  space_memWrite {uc uc' : U} {addr : U64} {data : List U8}
    (h : memWrite addr data uc = (.ok (), uc')) :
    space uc' = (space uc).store addr.toNat data
  space_memWrite_error {uc uc' : U} {addr : U64} {data : List U8} {e : String}
    (h : memWrite addr data uc = (.error e, uc')) : space uc' = space uc
  memRead_ok_iff (uc : U) (addr : U64) (n : ℕ) (buf : Vector U8 n) :
    memRead uc addr n = .ok buf ↔ (space uc).Covers addr.toNat n ∧
      buf.toList = (List.range n).map fun i => (space uc).byte (addr.toNat + i)
  regWrite_ok (uc : U) {r : RegisterX86} (hr : r.Named) (v : U64) :
    ∃ uc', regWrite r v uc = (.ok (), uc')
  regRead_regWrite {uc uc' : U} {r : RegisterX86} {v : U64} (hr : r.Named)
    (h : regWrite r v uc = (.ok (), uc')) : regRead uc' r = .ok v
  regRead_regWrite_of_ne {uc uc' : U} {r s : RegisterX86} {v : U64} (hr : r.Named) (hs : s.Named)
    (hne : r ≠ s) (h : regWrite r v uc = (.ok (), uc')) : regRead uc' s = regRead uc s
  space_regWrite (uc : U) (r : RegisterX86) (v : U64) : space (regWrite r v uc).2 = space uc
  stopRequested_emuStop (uc : U) : stopRequested (emuStop uc).2 = true

section Laws
variable {U : Type} [LawfulUnicorn U]

def memBytes (uc : U) (addr : U64) (n : ℕ) : List U8 :=
  (List.range n).map fun i => (LawfulUnicorn.space uc).byte (addr.toNat + i)

@[simp] theorem length_memBytes (uc : U) (addr : U64) (n : ℕ) : (memBytes uc addr n).length = n := by
  simp [memBytes]

theorem memRead_of_covers {uc : U} {addr : U64} {n : ℕ}
    (h : (LawfulUnicorn.space uc).Covers addr.toNat n) :
    ∃ buf, Unicorn.memRead uc addr n = .ok buf ∧ buf.toList = memBytes uc addr n := by
  refine ⟨⟨(memBytes uc addr n).toArray, by simp⟩, ?_, rfl⟩
  exact (LawfulUnicorn.memRead_ok_iff ..).mpr ⟨h, rfl⟩

theorem memMap_cases (uc : U) (base size : U64) (prot : Prot) :
    ((LawfulUnicorn.space uc).Free pageBytes addressEnd base.toNat size.toNat ∧
      (Unicorn.memMap base size prot uc).1 = .ok () ∧
      LawfulUnicorn.space (Unicorn.memMap base size prot uc).2 =
        (LawfulUnicorn.space uc).map base.toNat size.toNat prot) ∨
    (¬(LawfulUnicorn.space uc).Free pageBytes addressEnd base.toNat size.toNat ∧
      (∃ e, (Unicorn.memMap base size prot uc).1 = .error e) ∧
      LawfulUnicorn.space (Unicorn.memMap base size prot uc).2 = LawfulUnicorn.space uc) := by
  have hiff := LawfulUnicorn.memMap_ok_iff uc base size prot
  rcases h : Unicorn.memMap base size prot uc with ⟨e | ⟨⟩, uc'⟩
  · refine .inr ⟨fun hfree => ?_, ⟨e, rfl⟩, LawfulUnicorn.space_memMap_error h⟩
    obtain ⟨uc'', hok⟩ := hiff.mpr hfree
    rw [h] at hok
    cases hok
  · exact .inl ⟨hiff.mp ⟨uc', h⟩, rfl, LawfulUnicorn.space_memMap h⟩

theorem memWrite_cases (uc : U) (addr : U64) (data : List U8) :
    ((LawfulUnicorn.space uc).Covers addr.toNat data.length ∧
      (Unicorn.memWrite addr data uc).1 = .ok () ∧
      LawfulUnicorn.space (Unicorn.memWrite addr data uc).2 =
        (LawfulUnicorn.space uc).store addr.toNat data) ∨
    (¬(LawfulUnicorn.space uc).Covers addr.toNat data.length ∧
      (∃ e, (Unicorn.memWrite addr data uc).1 = .error e) ∧
      LawfulUnicorn.space (Unicorn.memWrite addr data uc).2 = LawfulUnicorn.space uc) := by
  have hiff := LawfulUnicorn.memWrite_ok_iff uc addr data
  rcases h : Unicorn.memWrite addr data uc with ⟨e | ⟨⟩, uc'⟩
  · refine .inr ⟨fun hcov => ?_, ⟨e, rfl⟩, LawfulUnicorn.space_memWrite_error h⟩
    obtain ⟨uc'', hok⟩ := hiff.mpr hcov
    rw [h] at hok
    cases hok
  · exact .inl ⟨hiff.mp ⟨uc', h⟩, rfl, LawfulUnicorn.space_memWrite h⟩

end Laws

/-! ### A small engine -/

structure FlatEngine where
  mappings : List (Mapping Prot)
  byte : ℕ → U8
  reg : RegisterX86 → U64
  stopped : Bool

namespace FlatEngine

def new : FlatEngine := ⟨[], fun _ => 0, fun _ => 0, false⟩

def space (e : FlatEngine) : AddressSpace Prot U8 := ⟨{m | m ∈ e.mappings}, e.byte⟩

instance (page top : ℕ) (e : FlatEngine) (base size : ℕ) :
    Decidable (e.space.Free page top base size) :=
  decidable_of_iff (page ∣ base ∧ page ∣ size ∧ 0 < size ∧ base + size ≤ top ∧
      ∀ m ∈ e.mappings, m.size = 0 ∨ size = 0 ∨ m.base + m.size ≤ base ∨ base + size ≤ m.base)
    ⟨fun ⟨h₁, h₂, h₃, h₄, h₅⟩ => ⟨h₁, h₂, h₃, h₄, fun m hm => disjoint_span_iff.mpr (h₅ m hm)⟩,
      fun h => ⟨h.base_dvd, h.size_dvd, h.pos, h.below,
        fun m hm => disjoint_span_iff.mp (h.clear m hm)⟩⟩

instance (e : FlatEngine) (base size : ℕ) : Decidable (e.space.Covers base size) :=
  decidable_of_iff (∀ i < size, ∃ m ∈ e.mappings, m.base ≤ base + i ∧ base + i < m.base + m.size) (by
    constructor
    · intro h a ha
      obtain ⟨m, hm, hin⟩ := h (a - base) (by rw [mem_span] at ha; omega)
      rw [Nat.add_sub_cancel' ha.1] at hin
      exact ⟨m, hm, hin⟩
    · intro h i hi
      exact h (base + i) (by rw [mem_span]; omega))

/-- Why a range is not mapped: whole pages are refused only where they are in use. -/
def mapError (base size : ℕ) : String :=
  if pageBytes ∣ base ∧ pageBytes ∣ size ∧ 0 < size ∧ base + size ≤ addressEnd then
    "Invalid memory mapping (UC_ERR_MAP)"
  else "Invalid argument (UC_ERR_ARG)"

instance : Unicorn FlatEngine where
  memMap base size prot e :=
    if e.space.Free pageBytes addressEnd base.toNat size.toNat then
      (.ok (), { e with
        mappings := ⟨base.toNat, size.toNat, prot⟩ :: e.mappings
        byte := (e.space.map base.toNat size.toNat prot).byte })
    else (.error (mapError base.toNat size.toNat), e)
  memWrite addr data e :=
    if e.space.Covers addr.toNat data.length then
      (.ok (), { e with byte := (e.space.store addr.toNat data).byte })
    else (.error "Invalid memory write (UC_ERR_WRITE_UNMAPPED)", e)
  memRead e addr n :=
    if e.space.Covers addr.toNat n then .ok (Vector.ofFn fun i => e.byte (addr.toNat + i))
    else .error "Invalid memory read (UC_ERR_READ_UNMAPPED)"
  regRead e r := .ok (e.reg r)
  regWrite r v e := (.ok (), { e with reg := fun s => if s = r then v else e.reg s })
  emuStop e := (.ok (), { e with stopped := true })

instance : LawfulUnicorn FlatEngine where
  space := space
  stopRequested := stopped
  memMap_ok_iff e base size prot := by
    simp only [Unicorn.memMap]
    split_ifs with h
    · exact ⟨fun _ => h, fun _ => ⟨_, rfl⟩⟩
    · exact ⟨fun hok => (by rcases hok with ⟨_, ⟨⟩⟩), fun hfree => absurd hfree h⟩
  space_memMap {e e' base size prot} h := by
    simp only [Unicorn.memMap] at h
    split_ifs at h
    · cases h
      simp only [space, AddressSpace.map, List.mem_cons, AddressSpace.mk.injEq, and_true]
      rfl
    · cases h
  space_memMap_error h := by
    simp only [Unicorn.memMap] at h
    split_ifs at h
    · cases h
    · cases h
      rfl
  memWrite_ok_iff e addr data := by
    simp only [Unicorn.memWrite]
    split_ifs with h
    · exact ⟨fun _ => h, fun _ => ⟨_, rfl⟩⟩
    · exact ⟨fun hok => (by rcases hok with ⟨_, ⟨⟩⟩), fun hcovers => absurd hcovers h⟩
  space_memWrite h := by
    simp only [Unicorn.memWrite] at h
    split_ifs at h
    · cases h
      rfl
    · cases h
  space_memWrite_error h := by
    simp only [Unicorn.memWrite] at h
    split_ifs at h
    · cases h
    · cases h
      rfl
  memRead_ok_iff e addr n buf := by
    have hlist : (Vector.ofFn fun i : Fin n => e.byte (addr.toNat + i)).toList =
        (List.range n).map fun i => e.byte (addr.toNat + i) := by
      apply List.ext_getElem <;> simp
    show (if _ then _ else _) = _ ↔ _ ∧ _ = (List.range n).map fun i => e.byte (addr.toNat + i)
    split_ifs with h
    · simp only [Except.ok.injEq, h, true_and, ← hlist]
      exact ⟨fun heq => heq ▸ rfl, fun heq => (Vector.toList_inj.mp heq).symm⟩
    · simp [h]
  regWrite_ok _ _ _ _ := ⟨_, rfl⟩
  regRead_regWrite _ h := by
    cases h
    simp [Unicorn.regRead]
  regRead_regWrite_of_ne _ _ hne h := by
    cases h
    simp [Unicorn.regRead, hne.symm]
  space_regWrite _ _ _ := rfl
  stopRequested_emuStop _ := rfl

theorem space_new : LawfulUnicorn.space FlatEngine.new = AddressSpace.empty := by
  show (⟨{m | m ∈ []}, fun _ => 0⟩ : AddressSpace Prot U8) = ⟨∅, fun _ => 0⟩
  simp

end FlatEngine
end WinVpwn.Cpu
