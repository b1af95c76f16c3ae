import WinVpwn.Cpu.Unicorn
import WinVpwn.Rust.BTreeMap

/-!
# Guest memory access for syscall handlers (vkernel/mem.rs)

The interface and its two backends: `InMemGuest`, a map from region bases to
region bytes, and `UnicornGuest`, which delegates to a live engine. The chunked
loops of `InMemGuest` are recursions on fuel that `read` and `write` set to the
number of bytes asked for; running out of it would be the fault `diverge`.
-/

namespace WinVpwn.Vkernel
open Rust WinVpwn.Cpu

/-- `GuestMemError`: the address that failed and the bytes not accessed. -/
structure GuestMemError where
  addr : U64
  len : ℕ
  deriving DecidableEq, Repr

/-- The `GuestMemory` trait (mem.rs:35). -/
class GuestMemory (M : Type) where
  read : Build → M → U64 → ℕ → Outcome GuestMemError (List U8)
  write : Build → U64 → List U8 → Act M GuestMemError Unit
  mapAnon : U64 → ℕ → U32 → Act M GuestMemError Unit

/-- A read of up to `isize::MAX` bytes returns exactly that many or an error. -/
def ReadsExactly (b : Build) (M : Type) [GuestMemory M] : Prop :=
  ∀ (mem : M) (addr : U64) (len : ℕ), len ≤ isizeMax →
    (∃ bs, GuestMemory.read b mem addr len = .ok bs ∧ bs.length = len) ∨
      ∃ e, GuestMemory.read b mem addr len = .err e

/-! ### The in-memory backend -/

/-- `InMemGuest`: region bytes under their base addresses. -/
structure InMemGuest where
  bytes : BTreeMap U64 (List U8)

namespace InMemGuest

def new : InMemGuest := ⟨BTreeMap.empty⟩

/-- `region` (mem.rs:59): the nearest base at or below `addr`, if that region
reaches `addr`. The base is at most `addr`, so the subtraction cannot wrap.
`region_mut` is the same lookup with mutable access. -/
def region (m : InMemGuest) (addr : U64) : Option (U64 × List U8) :=
  (m.bytes.lastLE addr).filter fun e => (addr - e.1).toNat < e.2.length

/-- `map_anon` (mem.rs:84). -/
def mapAnon (base : U64) (len : ℕ) (_prot : U32) : Act InMemGuest GuestMemError Unit := do
  let m ← Act.get
  if (m.bytes.get? base).isSome then
    Act.lift (.err ⟨base, len⟩)
  else
    let zeros ← Act.lift (zeroed len)
    Act.set ⟨m.bytes.insert base zeros⟩

/-- The loop of `read` (mem.rs:95-112). -/
def readLoop (b : Build) (m : InMemGuest) (len : ℕ) (fuel : ℕ) (cursor : U64) (out : List U8) :
    Outcome GuestMemError (List U8) :=
  if out.length < len then
    match fuel with
    | 0 => .fault .diverge
    | fuel + 1 =>
      let remaining := len - out.length
      match m.region cursor with
      | some (base, bytes) => do
        let offset := (cursor - base).toNat
        let take := min remaining (bytes.length - offset)
        let chunk ← slice bytes offset (offset + take)
        let cursor ← b.add cursor (BitVec.ofNat 64 take)
        readLoop b m len fuel cursor (out ++ chunk)
      | none => .err ⟨cursor, remaining⟩
  else .ok out

/-- `read` (mem.rs:92). -/
def read (b : Build) (m : InMemGuest) (addr : U64) (len : ℕ) : Outcome GuestMemError (List U8) := do
  reserve len
  readLoop b m len len addr []

/-- The loop of `write` (mem.rs:119-135). -/
def writeLoop (b : Build) (data : List U8) (fuel : ℕ) (cursor : U64) (idx : ℕ) :
    Act InMemGuest GuestMemError Unit :=
  if idx < data.length then
    match fuel with
    | 0 => Act.lift (.fault .diverge)
    | fuel + 1 => do
      let m ← Act.get
      let remaining := data.length - idx
      match m.region cursor with
      | none => Act.lift (.err ⟨cursor, remaining⟩)
      | some (base, bytes) =>
        let offset := (cursor - base).toNat
        let take := min remaining (bytes.length - offset)
        let chunk ← Act.lift (slice data idx (idx + take))
        let bytes' ← Act.lift (copyInto bytes offset chunk)
        Act.set ⟨m.bytes.insert base bytes'⟩
        let cursor ← Act.lift (b.add cursor (BitVec.ofNat 64 take))
        writeLoop b data fuel cursor (idx + take)
  else pure ()

/-- `write` (mem.rs:116). -/
def write (b : Build) (addr : U64) (data : List U8) : Act InMemGuest GuestMemError Unit :=
  writeLoop b data data.length addr 0

instance : GuestMemory InMemGuest := ⟨read, write, mapAnon⟩

end InMemGuest

/-! ### The engine-backed backend -/

/-- `UnicornGuest`: a borrowed engine. -/
structure UnicornGuest (U : Type) where
  uc : U

namespace UnicornGuest
variable {U : Type} [Unicorn U]

/-- `read` (mem.rs:158). The engine's own error is dropped. -/
def read (_b : Build) (m : UnicornGuest U) (addr : U64) (len : ℕ) :
    Outcome GuestMemError (List U8) := do
  let _buf ← zeroed len
  match Unicorn.memRead m.uc addr len with
  | .ok buf => .ok buf.toList
  | .error _ => .err ⟨addr, len⟩

/-- `write` (mem.rs:166). -/
def write (_b : Build) (addr : U64) (data : List U8) : Act (UnicornGuest U) GuestMemError Unit :=
  Act.zoom UnicornGuest.uc (fun uc _ => ⟨uc⟩)
    (engineCall (fun _ => ⟨addr, data.length⟩) (Unicorn.memWrite addr data))

/-- `map_anon` (mem.rs:172): regions are mapped by the owner of the engine. -/
def mapAnon (_base : U64) (_len : ℕ) (_prot : U32) : Act (UnicornGuest U) GuestMemError Unit :=
  pure ()

instance : GuestMemory (UnicornGuest U) := ⟨read, write, mapAnon⟩

theorem read_returns_iff (b : Build) (m : UnicornGuest U) (addr : U64) (len : ℕ) :
    (read b m addr len).Returns ↔ len ≤ isizeMax := by
  unfold read zeroed reserve
  split_ifs with h
  · cases hread : Unicorn.memRead m.uc addr len <;> simp [h]
  · simp [h]

theorem readsExactly (b : Build) : ReadsExactly b (UnicornGuest U) := by
  intro mem addr len hlen
  show (∃ bs, read b mem addr len = .ok bs ∧ bs.length = len) ∨ ∃ e, read b mem addr len = .err e
  unfold read
  rw [zeroed_eq len hlen, Outcome.ok_bind]
  cases Unicorn.memRead mem.uc addr len with
  | ok buf => exact Or.inl ⟨buf.toList, rfl, Vector.length_toList⟩
  | error e => exact Or.inr ⟨⟨addr, len⟩, rfl⟩

end UnicornGuest

/-! ### What `InMemGuest::read` can run into -/

namespace InMemGuest

theorem region_eq_some (m : InMemGuest) (addr base : U64) (bytes : List U8)
    (h : m.region addr = some (base, bytes)) :
    (base, bytes) ∈ m.bytes.entries ∧ base.toNat ≤ addr.toNat ∧
      addr.toNat - base.toNat < bytes.length := by
  obtain ⟨hlast, hreach⟩ := Option.filter_eq_some_iff.mp h
  obtain ⟨hmem, hle, -⟩ := (m.bytes.lastLE_eq_some addr (base, bytes)).mp hlast
  have hle' : base.toNat ≤ addr.toNat := hle
  refine ⟨hmem, hle', ?_⟩
  simpa only [decide_eq_true_eq, toNat_sub_of_le addr base hle'] using hreach

/-- From `addr` the regions follow one another without a gap up to the top of
the address space. -/
inductive ClimbsToTop (m : InMemGuest) : U64 → Prop
  | top {addr base : U64} {bytes : List U8} (h : m.region addr = some (base, bytes))
      (hend : 2 ^ 64 ≤ base.toNat + bytes.length) : ClimbsToTop m addr
  | next {addr base : U64} {bytes : List U8} (h : m.region addr = some (base, bytes))
      (hend : base.toNat + bytes.length < 2 ^ 64)
      (hrest : ClimbsToTop m (BitVec.ofNat 64 (base.toNat + bytes.length))) : ClimbsToTop m addr

/- One pass of the loop, inside a region: the slice is in range, so only the
cursor addition is left to go wrong. -/
theorem readLoop_step (b : Build) (m : InMemGuest) (len fuel : ℕ) (cursor base : U64)
    (out bytes : List U8) (hlen : out.length < len) (hr : m.region cursor = some (base, bytes)) :
    ∃ chunk : List U8,
      chunk = (bytes.drop (cursor.toNat - base.toNat)).take (len - out.length) ∧
      chunk.length = min (len - out.length) (bytes.length - (cursor.toNat - base.toNat)) ∧
      readLoop b m len (fuel + 1) cursor out =
        (b.add cursor (BitVec.ofNat 64 chunk.length) >>= fun cursor =>
          readLoop b m len fuel cursor (out ++ chunk)) := by
  obtain ⟨-, hle, hreach⟩ := region_eq_some m cursor base bytes hr
  refine ⟨_, rfl, by simp, ?_⟩
  rw [readLoop, if_pos hlen]
  simp only [hr, toNat_sub_of_le cursor base hle]
  rw [slice_eq _ _ _ (by omega) (by omega), Outcome.ok_bind]
  have hchunk : (bytes.drop (cursor.toNat - base.toNat)).take
      (cursor.toNat - base.toNat + min (len - out.length) (bytes.length - (cursor.toNat - base.toNat))
        - (cursor.toNat - base.toNat)) =
      (bytes.drop (cursor.toNat - base.toNat)).take (len - out.length) := by
    rw [Nat.add_sub_cancel_left, List.take_eq_take_iff]
    simp
  rw [hchunk]
  simp

theorem climbsToTop_iff (m : InMemGuest) (cursor base : U64) (bytes : List U8)
    (hr : m.region cursor = some (base, bytes)) :
    m.ClimbsToTop cursor ↔ 2 ^ 64 ≤ base.toNat + bytes.length ∨
      m.ClimbsToTop (BitVec.ofNat 64 (base.toNat + bytes.length)) := by
  constructor
  · intro h
    cases h with
    | top h' hend =>
      rw [hr] at h'
      cases h'
      exact Or.inl hend
    | next h' hend hrest =>
      rw [hr] at h'
      cases h'
      exact Or.inr hrest
  · rintro (hend | hrest)
    · exact .top hr hend
    · rcases Nat.lt_or_ge (base.toNat + bytes.length) (2 ^ 64) with hend | hend
      · exact .next hr hend hrest
      · exact .top hr hend

theorem not_climbsToTop_of_none {m : InMemGuest} {cursor : U64} (hr : m.region cursor = none) :
    ¬m.ClimbsToTop cursor := by
  intro h
  cases h with
  | top h' _ =>
    rw [hr] at h'
    cases h'
  | next h' _ _ =>
    rw [hr] at h'
    cases h'

/- A pass that stays below the top leaves the question where it was: either the
request ends inside this region, or the walk goes on at its end. -/
theorem climbsToTop_after_chunk (m : InMemGuest) (cursor next base : U64) (bytes : List U8)
    (need k : ℕ) (hr : m.region cursor = some (base, bytes))
    (hk : k = min need (bytes.length - (cursor.toNat - base.toNat)))
    (hnext : next.toNat = cursor.toNat + k) :
    (2 ^ 64 ≤ next.toNat + (need - k) ∧ m.ClimbsToTop next) ↔
      (2 ^ 64 ≤ cursor.toNat + need ∧ m.ClimbsToTop cursor) := by
  obtain ⟨-, hle, hreach⟩ := region_eq_some m cursor base bytes hr
  have hlt := next.isLt
  rw [climbsToTop_iff m cursor base bytes hr]
  rcases Nat.lt_or_ge (bytes.length - (cursor.toNat - base.toNat)) need with hin | hin
  · have hend : next = BitVec.ofNat 64 (base.toNat + bytes.length) := by
      apply BitVec.eq_of_toNat_eq
      rw [BitVec.toNat_ofNat]
      omega
    have hlow : ¬2 ^ 64 ≤ base.toNat + bytes.length := by omega
    rw [← hend]
    simp only [hlow, false_or, and_congr_left_iff]
    omega
  · constructor
    · intro h
      obtain ⟨htop, -⟩ := h
      omega
    · intro h
      obtain ⟨htop, -⟩ := h
      omega

theorem readLoop_done (b : Build) (m : InMemGuest) (len fuel : ℕ) (cursor : U64) (out : List U8)
    (hdone : ¬out.length < len) : readLoop b m len fuel cursor out = .ok out := by
  cases fuel with
  | zero => rw [readLoop, if_neg hdone]
  | succ fuel => rw [readLoop, if_neg hdone]

theorem readLoop_done_returns_iff (b : Build) (m : InMemGuest) (len fuel : ℕ) (cursor : U64)
    (out : List U8) (hdone : ¬out.length < len) :
    (readLoop b m len fuel cursor out).Returns ↔
      ¬(b = .debug ∧ 2 ^ 64 ≤ cursor.toNat + (len - out.length) ∧ m.ClimbsToTop cursor) := by
  have hc := cursor.isLt
  rw [readLoop_done b m len fuel cursor out hdone]
  simp only [Outcome.returns_ok, true_iff]
  intro h
  obtain ⟨-, htop, -⟩ := h
  omega

/- With enough fuel the loop returns, unless a debug build adds its cursor past
the top: the request reaches the top and the regions carry it there. -/
theorem readLoop_returns_iff (b : Build) (m : InMemGuest) (len fuel : ℕ) (cursor : U64)
    (out : List U8) (hout : out.length ≤ len) (hfuel : len - out.length ≤ fuel)
    (hlen : len ≤ isizeMax) :
    (readLoop b m len fuel cursor out).Returns ↔
      ¬(b = .debug ∧ 2 ^ 64 ≤ cursor.toNat + (len - out.length) ∧ m.ClimbsToTop cursor) := by
  induction fuel generalizing cursor out with
  | zero => exact readLoop_done_returns_iff b m len 0 cursor out (by omega)
  | succ fuel ih =>
    by_cases hmore : out.length < len
    swap
    · exact readLoop_done_returns_iff b m len (fuel + 1) cursor out hmore
    cases hr : m.region cursor with
    | none =>
      rw [readLoop, if_pos hmore]
      simp only [hr, Outcome.returns_err, true_iff]
      intro h
      exact not_climbsToTop_of_none hr h.2.2
    | some e =>
      obtain ⟨base, bytes⟩ := e
      obtain ⟨-, hle, hreach⟩ := region_eq_some m cursor base bytes hr
      obtain ⟨chunk, -, hchunk, hstep⟩ := readLoop_step b m len fuel cursor base out bytes hmore hr
      have hout' : (out ++ chunk).length = out.length + chunk.length := List.length_append ..
      have hle' : (out ++ chunk).length ≤ len := by omega
      have hfuel' : len - (out ++ chunk).length ≤ fuel := by omega
      rw [hstep]
      cases b with
      | release =>
        rw [Build.add, Outcome.ok_bind, ih _ _ hle' hfuel']
        simp
      | debug =>
        by_cases hfit : cursor.toNat + chunk.length < 2 ^ 64
        · rw [Build.add_ofNat_eq _ _ _ hfit, Outcome.ok_bind, ih _ _ hle' hfuel', hout',
            Nat.sub_add_eq]
          simp only [true_and, not_iff_not]
          exact climbsToTop_after_chunk m cursor _ base bytes _ _ hr hchunk
            (toNat_add_ofNat_of_lt cursor chunk.length hfit)
        · have hword : (BitVec.ofNat 64 chunk.length).toNat = chunk.length := by
            rw [BitVec.toNat_ofNat]
            unfold isizeMax at hlen
            omega
          have hover : ¬cursor.toNat + (BitVec.ofNat 64 chunk.length).toNat < 2 ^ 64 := by
            rwa [hword]
          rw [climbsToTop_iff m cursor base bytes hr]
          simp only [Build.add, if_neg hover, Outcome.fault_bind, Outcome.not_returns_fault,
            true_and, false_iff, not_not]
          exact ⟨by omega, Or.inl (by omega)⟩

/-- `read` returns unless the request exceeds `isize::MAX` or, in a debug build,
runs through mapped memory over the top of the address space. -/
theorem read_returns_iff (b : Build) (m : InMemGuest) (addr : U64) (len : ℕ) :
    (read b m addr len).Returns ↔
      len ≤ isizeMax ∧ ¬(b = .debug ∧ 2 ^ 64 ≤ addr.toNat + len ∧ m.ClimbsToTop addr) := by
  unfold read
  by_cases hlen : len ≤ isizeMax
  · rw [reserve_eq len hlen, Outcome.ok_bind,
      readLoop_returns_iff b m len len addr [] (Nat.zero_le _) (Nat.sub_le _ _) hlen]
    simp [hlen]
  · simp [reserve, hlen]

theorem readLoop_length (b : Build) (m : InMemGuest) (len fuel : ℕ) (cursor : U64)
    (out bs : List U8) (hout : out.length ≤ len) (h : readLoop b m len fuel cursor out = .ok bs) :
    bs.length = len := by
  induction fuel generalizing cursor out with
  | zero =>
    rw [readLoop] at h
    split_ifs at h with hmore
    cases h
    omega
  | succ fuel ih =>
    by_cases hmore : out.length < len
    · cases hr : m.region cursor with
      | none =>
        rw [readLoop, if_pos hmore] at h
        simp only [hr] at h
        cases h
      | some e =>
        obtain ⟨chunk, -, hchunk, hstep⟩ := readLoop_step b m len fuel cursor e.1 out e.2 hmore hr
        rw [hstep] at h
        obtain ⟨cursor', -, hrest⟩ := Outcome.bind_eq_ok.mp h
        exact ih cursor' (out ++ chunk) (by rw [List.length_append]; omega) hrest
    · rw [readLoop, if_neg hmore] at h
      cases h
      omega

theorem read_length (b : Build) (m : InMemGuest) (addr : U64) (len : ℕ) (bs : List U8)
    (h : read b m addr len = .ok bs) : bs.length = len := by
  obtain ⟨_, -, hloop⟩ := Outcome.bind_eq_ok.mp h
  exact readLoop_length b m len len addr [] bs (Nat.zero_le _) hloop

/- In a release build the cursor wraps and every layout of regions is read
within the interface's terms. -/
theorem readsExactly_release : ReadsExactly .release InMemGuest := by
  intro mem addr len hlen
  have hret : (read .release mem addr len).Returns :=
    (read_returns_iff .release mem addr len).mpr ⟨hlen, by simp⟩
  rcases (Outcome.returns_iff _).mp hret with ⟨bs, hbs⟩ | ⟨e, he⟩
  · exact Or.inl ⟨bs, hbs, read_length _ _ _ _ _ hbs⟩
  · exact Or.inr ⟨e, he⟩

/-! ### What `InMemGuest::map_anon` does -/

theorem mapAnon_cases (m : InMemGuest) (base : U64) (len : ℕ) (prot : U32) :
    ((∃ bytes, (base, bytes) ∈ m.bytes.entries) ∧
      mapAnon base len prot m = (.err ⟨base, len⟩, m)) ∨
    ((∀ e ∈ m.bytes.entries, e.1 ≠ base) ∧ isizeMax < len ∧
      mapAnon base len prot m = (.fault .capacity, m)) ∨
    ((∀ e ∈ m.bytes.entries, e.1 ≠ base) ∧ len ≤ isizeMax ∧
      mapAnon base len prot m = (.ok (), ⟨m.bytes.insert base (List.replicate len 0)⟩)) := by
  unfold mapAnon zeroed reserve
  simp only [Act.bind_apply, Act.get_apply]
  cases hget : m.bytes.get? base with
  | some bytes => exact Or.inl ⟨⟨bytes, (m.bytes.get?_eq_some base bytes).mp hget⟩, rfl⟩
  | none =>
    have hfresh : ∀ e ∈ m.bytes.entries, e.1 ≠ base := by
      intro e he heq
      have hsome := (m.bytes.get?_eq_some base e.2).mpr (heq ▸ he)
      rw [hget] at hsome
      cases hsome
    rcases Nat.lt_or_ge isizeMax len with hlen | hlen
    · refine Or.inr (Or.inl ⟨hfresh, hlen, ?_⟩)
      rw [if_neg (Nat.not_le.mpr hlen)]
      rfl
    · refine Or.inr (Or.inr ⟨hfresh, hlen, ?_⟩)
      rw [if_pos hlen]
      rfl

end InMemGuest
section Laws
variable {U : Type} [LawfulUnicorn U]

theorem guest_read_cases (b : Build) (uc : U) (addr : U64) {n : ℕ} (hn : n ≤ isizeMax) :
    ((LawfulUnicorn.space uc).Covers addr.toNat n ∧
      GuestMemory.read b (⟨uc⟩ : UnicornGuest U) addr n = .ok (memBytes uc addr n)) ∨
    (¬(LawfulUnicorn.space uc).Covers addr.toNat n ∧
      ∃ e, GuestMemory.read b (⟨uc⟩ : UnicornGuest U) addr n = .err e) := by
  show (_ ∧ UnicornGuest.read b ⟨uc⟩ addr n = _) ∨ (_ ∧ ∃ e, UnicornGuest.read b ⟨uc⟩ addr n = _)
  unfold UnicornGuest.read
  rw [zeroed_eq n hn, Outcome.ok_bind]
  by_cases h : (LawfulUnicorn.space uc).Covers addr.toNat n
  · obtain ⟨buf, hread, hbytes⟩ := memRead_of_covers h
    exact Or.inl ⟨h, by rw [hread, ← hbytes]⟩
  · refine Or.inr ⟨h, ⟨addr, n⟩, ?_⟩
    cases hread : Unicorn.memRead uc addr n with
    | ok buf => exact absurd ((LawfulUnicorn.memRead_ok_iff ..).mp hread).1 h
    | error e => rfl

end Laws
end WinVpwn.Vkernel
