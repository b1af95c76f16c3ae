import WinVpwn.Cpu.MapElfFailure
import WinVpwn.Cpu.StartImage
import WinVpwn.Cpu.TwoEngines

/-!
# Reading back

What is in the guest stays there, for `read_guest` and `reg` to see, through any
further calls and runs in which neither the owner of the `Vcpu` nor the guest's own
code stores over it: the hook and a refused call never do.
-/

namespace WinVpwn.Cpu
open Rust Lib WinVpwn.Memory WinVpwn.Elf WinVpwn.Syscall WinVpwn.Vkernel WinVpwn.Trace

namespace Vcpu
variable {U : Type} [Unicorn U]

/-- `read_guest` (unicorn_engine.rs:326). -/
def readGuest (v : Vcpu U) (addr : U64) (len : ℕ) : Outcome VcpuError (List U8) := do
  let _buf ← zeroed len
  match Unicorn.memRead v.uc addr len with
  | .ok buf => .ok buf.toList
  | .error e => .err (.regOp e)

/-- `reg` (unicorn_engine.rs:312). -/
def reg (v : Vcpu U) (r : RegisterX86) : Outcome VcpuError U64 :=
  match Unicorn.regRead v.uc r with
  | .ok value => .ok value
  | .error e => .err (.regOp e)

/-- The stretches of guest code in one `emu_start`: the engine as the guest got it and
as it was at the next syscall, or when the guest stopped. -/
def stretches : Execution U → Vcpu U → List (U × U)
  | .done uc _, v => [(v.uc, uc)]
  | .syscall uc resume, v =>
    let hook := syscallHook { v with uc := uc }
    (v.uc, uc) :: match hook.1 with
      | .ok () => stretches (resume hook.2.uc) hook.2
      | _ => []

/-- The guest's memory as the engine has it. -/
noncomputable def memory {U : Type} [LawfulUnicorn U] (v : Vcpu U) : FlatMemory U8 :=
  (LawfulUnicorn.space v.uc).contents

end Vcpu

/-- The documented behaviour of `emu_stop`: it asks for a stop and nothing else. -/
class StoppingUnicorn (U : Type) extends FramedUnicorn U where
  space_emuStop (uc : U) : space (emuStop uc).2 = space uc
  regRead_emuStop (uc : U) (r : RegisterX86) : regRead (emuStop uc).2 r = regRead uc r

instance : StoppingUnicorn FlatEngine where
  space_emuStop _ := rfl
  regRead_emuStop _ _ := rfl

/-! ### Reads -/

section Reads
variable {U : Type} [LawfulUnicorn U]

theorem readGuest_eq_ok {v : Vcpu U} {addr : U64} {n : ℕ} {bs : List U8} :
    v.readGuest addr n = .ok bs ↔
      n ≤ isizeMax ∧ bs.length = n ∧ v.memory.Holds addr.toNat bs := by
  unfold Vcpu.readGuest
  by_cases hn : n ≤ isizeMax
  swap
  · rw [show (zeroed n : Outcome VcpuError (List U8)) = .fault .capacity by
      unfold zeroed reserve
      rw [if_neg hn]
      rfl]
    exact ⟨fun h => (by cases h), fun h => absurd h.1 hn⟩
  rw [zeroed_eq n hn, Outcome.ok_bind]
  by_cases hcov : (LawfulUnicorn.space v.uc).Covers addr.toNat n
  · obtain ⟨buf, hread, hbytes⟩ := memRead_of_covers hcov
    have hholds : v.memory.Holds addr.toNat (memBytes v.uc addr n) :=
      AddressSpace.holds_contents hcov
    rw [hread]
    show Outcome.ok buf.toList = _ ↔ _
    rw [hbytes]
    constructor
    · intro h
      cases h
      exact ⟨hn, length_memBytes .., hholds⟩
    · intro h
      obtain ⟨-, hlen, hbs⟩ := h
      rw [hholds.unique hbs ((length_memBytes ..).trans hlen.symm)]
  · have hiff := LawfulUnicorn.memRead_ok_iff v.uc addr n
    constructor
    · intro h
      cases hread : Unicorn.memRead v.uc addr n with
      | ok buf => exact absurd ((hiff buf).mp hread).1 hcov
      | error e =>
        rw [hread] at h
        cases h
    · intro h
      obtain ⟨-, rfl, hbs⟩ := h
      exact absurd ((AddressSpace.covers_contents ..).mp hbs.covers) hcov

end Reads

/-! ### What stays in an engine -/

/-- The bytes mapped in `A` and the registers of `R` are in `uc'` as they are in `uc`. -/
structure Kept {U : Type} [LawfulUnicorn U] (A : Set ℕ) (R : Set RegisterX86) (uc uc' : U) :
    Prop where
  memory : (LawfulUnicorn.space uc).contents.KeptIn A (LawfulUnicorn.space uc').contents
  regs : ∀ r ∈ R, r.Named → Unicorn.regRead uc' r = Unicorn.regRead uc r

section Kept
variable {U : Type} [FramedUnicorn U] {A : Set ℕ} {R : Set RegisterX86}

omit [FramedUnicorn U] in
theorem kept_refl [LawfulUnicorn U] (uc : U) : Kept A R uc uc :=
  ⟨FlatMemory.keptIn_refl _ _, fun _ _ _ => rfl⟩

omit [FramedUnicorn U] in
theorem Kept.trans [LawfulUnicorn U] {uc uc₁ uc₂ : U} (h : Kept A R uc uc₁)
    (h' : Kept A R uc₁ uc₂) : Kept A R uc uc₂ :=
  ⟨h.memory.trans h'.memory, fun r hr hn => (h'.regs r hr hn).trans (h.regs r hr hn)⟩

theorem kept_memMap (uc : U) (base size : U64) (prot : Prot) :
    Kept A R uc (Unicorn.memMap base size prot uc).2 := by
  refine ⟨?_, fun r _ _ => FramedUnicorn.regRead_memMap uc base size prot r⟩
  rcases memMap_cases uc base size prot with ⟨hfree, -, hspace⟩ | ⟨-, -, hspace⟩
  · rw [hspace]
    exact AddressSpace.keptIn_map hfree prot A
  · rw [hspace]
    exact FlatMemory.keptIn_refl A _

theorem kept_memWrite (uc : U) {addr : U64} {data : List U8}
    (h : Disjoint (span addr.toNat data.length) A) :
    Kept A R uc (Unicorn.memWrite addr data uc).2 := by
  refine ⟨?_, fun r _ _ => FramedUnicorn.regRead_memWrite uc addr data r⟩
  rcases memWrite_cases uc addr data with ⟨hcov, -, hspace⟩ | ⟨-, -, hspace⟩
  · rw [hspace, AddressSpace.contents_store hcov]
    exact FlatMemory.keptIn_write _ h
  · rw [hspace]
    exact FlatMemory.keptIn_refl A _

theorem kept_regWrite (uc : U) {r : RegisterX86} (hr : ∀ s ∈ R, r.Named ∧ s ≠ r) (value : U64) :
    Kept A R uc (Unicorn.regWrite r value uc).2 := by
  refine ⟨?_, fun s hs hn => ?_⟩
  · rw [LawfulUnicorn.space_regWrite]
    exact FlatMemory.keptIn_refl A _
  · obtain ⟨hnamed, hne⟩ := hr s hs
    obtain ⟨uc', hwrite⟩ := LawfulUnicorn.regWrite_ok uc hnamed value
    rw [hwrite]
    exact LawfulUnicorn.regRead_regWrite_of_ne hnamed hn hne.symm hwrite

end Kept

/-! ### Calls made of engine calls -/

section Engine
variable {U : Type} [Unicorn U] {b : Build} {R : U → U → Prop}

omit [Unicorn U] in
theorem within_onEngine {α : Type} {f : String → VcpuError} {call : U → Except String α × U}
    (h : ∀ uc, R uc (call uc).2) :
    Act.Within (fun v v' : Vcpu U => R v.uc v'.uc) (Vcpu.onEngine f call) := by
  intro v
  have huc : (Vcpu.onEngine f call v).2.uc = (call v.uc).2 := by
    unfold Vcpu.onEngine Act.zoom engineCall
    rcases call v.uc with ⟨_ | _, uc⟩ <;> rfl
  rw [huc]
  exact h v.uc

theorem within_mapRange (hrefl : ∀ uc, R uc uc)
    (htrans : ∀ uc uc₁ uc₂, R uc uc₁ → R uc₁ uc₂ → R uc uc₂) {base size : U64} {flags : U32}
    {prot : Prot} (h : ∀ uc, R uc (Unicorn.memMap base size prot uc).2) :
    Act.Within (fun v v' : Vcpu U => R v.uc v'.uc) (Vcpu.mapRange b base size flags prot) := by
  apply Act.within_bind
  · exact fun v v₁ v₂ => htrans v.uc v₁.uc v₂.uc
  · exact fun v => hrefl v.uc
  · exact fun _ => within_onEngine h

/-- A relation that every engine call of a mapping keeps to. -/
structure MapFrame (R : U → U → Prop) : Prop where
  refl : ∀ uc, R uc uc
  trans : ∀ uc uc₁ uc₂, R uc uc₁ → R uc₁ uc₂ → R uc uc₂
  memMap : ∀ uc base size prot, R uc (Unicorn.memMap base size prot uc).2
  memWrite : ∀ uc addr data, R uc (Unicorn.memWrite addr data uc).2

theorem MapFrame.mapMemory (h : MapFrame R) (base size : U64) (prot : Prot) :
    Act.Within (fun v v' : Vcpu U => R v.uc v'.uc) (Vcpu.mapMemory b base size prot) := by
  apply Act.within_bind
  · exact fun v v₁ v₂ => h.trans v.uc v₁.uc v₂.uc
  · exact within_mapRange h.refl h.trans fun uc => h.memMap uc base size prot
  · exact fun _ v => h.refl v.uc

theorem MapFrame.mapSegment (h : MapFrame R) (seg : Segment) :
    Act.Within (fun v v' : Vcpu U => R v.uc v'.uc) (Vcpu.mapSegment b seg) := by
  have hrefl : ∀ v : Vcpu U, R v.uc v.uc := fun v => h.refl v.uc
  have htrans : ∀ v v₁ v₂ : Vcpu U, R v.uc v₁.uc → R v₁.uc v₂.uc → R v.uc v₂.uc :=
    fun v v₁ v₂ => h.trans v.uc v₁.uc v₂.uc
  apply Act.within_bind htrans (Act.within_lift hrefl _)
  intro range
  apply Act.within_bind htrans
    (within_mapRange h.refl h.trans fun uc => h.memMap uc range.1 range.2 _)
  intro _
  apply Act.within_bind htrans (Act.within_lift hrefl _)
  intro offset
  apply Act.within_bind htrans (Act.within_lift hrefl _)
  intro data
  apply Act.within_bind htrans (Act.within_lift hrefl _)
  intro addr
  apply Act.within_bind htrans (within_onEngine fun uc => h.memWrite uc addr data)
  exact fun _ v => hrefl v

theorem MapFrame.mapElf (h : MapFrame R) (elf : LoadedElf) :
    Act.Within (fun v v' : Vcpu U => R v.uc v'.uc) (Vcpu.mapElf b elf) := by
  apply Act.within_forM
  · exact fun v => h.refl v.uc
  · exact fun v v₁ v₂ => h.trans v.uc v₁.uc v₂.uc
  · exact fun seg _ => h.mapSegment seg

theorem MapFrame.prepare (h : MapFrame R) (hrsp : ∀ uc value, R uc (Unicorn.regWrite .RSP value uc).2)
    (hrip : ∀ uc value, R uc (Unicorn.regWrite .RIP value uc).2) (elf : LoadedElf) :
    Act.Within (fun v v' : Vcpu U => R v.uc v'.uc) (Vcpu.prepare b elf) := by
  have hrefl : ∀ v : Vcpu U, R v.uc v.uc := fun v => h.refl v.uc
  have htrans : ∀ v v₁ v₂ : Vcpu U, R v.uc v₁.uc → R v₁.uc v₂.uc → R v.uc v₂.uc :=
    fun v v₁ v₂ => h.trans v.uc v₁.uc v₂.uc
  apply Act.within_bind htrans (h.mapElf elf)
  intro _
  apply Act.within_bind htrans (h.mapMemory _ _ _)
  intro _
  apply Act.within_bind htrans (Act.within_lift hrefl _)
  intro argcAddr
  apply Act.within_bind htrans (within_onEngine fun uc => h.memWrite uc argcAddr _)
  intro _
  apply Act.within_bind htrans (within_onEngine fun uc => hrsp uc argcAddr)
  exact fun _ => within_onEngine fun uc => hrip uc elf.entry

end Engine

theorem mapFrame_regRead {U : Type} [FramedUnicorn U] (r : RegisterX86) :
    MapFrame fun uc uc' : U => Unicorn.regRead uc' r = Unicorn.regRead uc r where
  refl _ := rfl
  trans _ _ _ h h' := h'.trans h
  memMap uc base size prot := FramedUnicorn.regRead_memMap uc base size prot r
  memWrite uc addr data := FramedUnicorn.regRead_memWrite uc addr data r

/-! ### What stays through a call -/

/-- A call whose stores are not in `A` and whose registers are not in `R`, the guest's own
in the stretches of a run included. A run also answers its syscalls in `rax`. -/
def Op.Leaves {U : Type} [LawfulUnicorn U] (A : Set ℕ) (R : Set RegisterX86) (v : Vcpu U) :
    Op U → Prop
  | .run timeoutMs emuStart => .RAX ∉ R ∧
      ∀ s ∈ Vcpu.stretches (v.execution timeoutMs emuStart) v, Kept A R s.1 s.2
  | .setReg reg _ => ∀ s ∈ R, reg.Named ∧ s ≠ reg
  | .writeGuest addr data => Disjoint (span addr.toNat data.length) A
  | .mapMemory _ _ _ => True
  | .mapElf image => ∀ seg ∈ image.segments, seg.Valid
  | .setupInitialState _ stackTop =>
      Disjoint (span (stackTop - 0x20).toNat 0x20) A ∧ .RSP ∉ R ∧ .RIP ∉ R

def LeavesAll {U : Type} [LawfulUnicorn U] (b : Build) (A : Set ℕ) (R : Set RegisterX86) :
    List (Op U) → Vcpu U → Prop
  | [], _ => True
  | op :: ops, v => op.Leaves A R v ∧ LeavesAll b A R ops (op.exec b v)

section Calls
variable {U : Type} [StoppingUnicorn U] {b : Build} {A : Set ℕ} {R : Set RegisterX86}

omit [StoppingUnicorn U] in
theorem kept_mapRange [FramedUnicorn U] (base size : U64) (flags : U32) (prot : Prot) :
    Act.Within (fun v v' : Vcpu U => Kept A R v.uc v'.uc)
      (Vcpu.mapRange b base size flags prot) :=
  within_mapRange kept_refl (fun _ _ _ => Kept.trans) fun uc => kept_memMap uc base size prot

omit [StoppingUnicorn U] in
theorem kept_mapSegment [FramedUnicorn U] {seg : Segment} (hv : seg.Valid) :
    Act.Within (fun v v' : Vcpu U => Kept A R v.uc v'.uc) (Vcpu.mapSegment b seg) := by
  intro v
  refine ⟨?_, fun r _ _ => (mapFrame_regRead r).mapSegment seg v⟩
  rcases mapSegment_effect b v hv with ⟨p, h⟩ | ⟨e, v', h, hspace, -⟩ | ⟨v', h, hfree, hspace, -⟩
  · rw [h]
    exact FlatMemory.keptIn_refl A _
  · rw [h]
    show FlatMemory.KeptIn A _ (LawfulUnicorn.space v'.uc).contents
    rw [hspace]
    exact FlatMemory.keptIn_refl A _
  · rw [h]
    show FlatMemory.KeptIn A _ (LawfulUnicorn.space v'.uc).contents
    rw [hspace]
    intro a _ x hx
    rw [AddressSpace.contents_eq_some] at hx ⊢
    obtain ⟨hmapped, hbyte⟩ := hx
    obtain ⟨hmapped', hbyte'⟩ := kept_load hv hfree hmapped
    exact ⟨hmapped', hbyte'.trans hbyte⟩

omit [StoppingUnicorn U] in
theorem kept_setupInitialState [FramedUnicorn U] (v : Vcpu U) (entry stackTop : U64)
    (hframe : Disjoint (span (stackTop - 0x20).toNat 0x20) A) (hrsp : .RSP ∉ R) (hrip : .RIP ∉ R) :
    Kept A R v.uc (Vcpu.setupInitialState b entry stackTop v).2.uc := by
  have hother : ∀ r, r.Named → r ∉ R → ∀ s ∈ R, r.Named ∧ s ≠ r :=
    fun r hn hr s hs => ⟨hn, fun heq => hr (heq ▸ hs)⟩
  unfold Vcpu.setupInitialState
  cases hsub : (b.sub stackTop 0x20 : Outcome VcpuError U64) with
  | err e => exact absurd hsub (Build.errorless_sub b _ _ e)
  | fault p =>
    exact kept_refl v.uc
  | ok argcAddr =>
    have haddr : argcAddr = stackTop - 0x20 := Build.eq_of_sub_eq_ok hsub
    have hstart : Act.Within (fun v v' : Vcpu U => Kept A R v.uc v'.uc)
        (do
          Vcpu.onEngine .regOp (Unicorn.memWrite argcAddr (List.replicate 0x20 0))
          Vcpu.onEngine .regOp (Unicorn.regWrite .RSP argcAddr)
          Vcpu.onEngine .regOp (Unicorn.regWrite .RIP entry)) := by
      apply Act.within_bind
      · exact fun _ _ _ => Kept.trans
      · apply within_onEngine
        intro uc
        apply kept_memWrite
        rw [List.length_replicate, haddr]
        exact hframe
      intro _
      apply Act.within_bind
      · exact fun _ _ _ => Kept.trans
      · exact within_onEngine fun uc => kept_regWrite uc (hother .RSP trivial hrsp) argcAddr
      · exact fun _ => within_onEngine fun uc => kept_regWrite uc (hother .RIP trivial hrip) entry
    exact hstart v

/- The hook writes `rax` or asks for a stop. -/
theorem kept_hook {v : Vcpu U} (hd : IsStage1 b v.dispatch) (hrax : .RAX ∉ R) :
    Kept A R v.uc (Vcpu.syscallHook v).2.uc := by
  rw [syscallHook_handled]
  have hstop : Kept A R v.uc (Unicorn.emuStop v.dispatched.uc).2 := by
    rw [dispatched_uc hd]
    refine ⟨?_, fun r _ _ => StoppingUnicorn.regRead_emuStop v.uc r⟩
    rw [StoppingUnicorn.space_emuStop]
    exact FlatMemory.keptIn_refl A _
  cases v.event.outcome with
  | ok o =>
    cases o with
    | ret value =>
      show Kept A R v.uc (Unicorn.regWrite .RAX _ v.dispatched.uc).2
      rw [dispatched_uc hd]
      exact kept_regWrite v.uc (r := .RAX) (fun s hs => ⟨trivial, fun heq => hrax (heq ▸ hs)⟩) _
    | exit reason => exact hstop
  | err e => exact hstop
  | fault p =>
    show Kept A R v.uc v.dispatched.uc
    rw [dispatched_uc hd]
    exact kept_refl v.uc

theorem kept_emulate {exec : Execution U} {v : Vcpu U} (hd : IsStage1 b v.dispatch)
    (hrax : .RAX ∉ R) (hguest : ∀ s ∈ Vcpu.stretches exec v, Kept A R s.1 s.2) :
    Kept A R v.uc (Vcpu.emulate exec v).2.uc := by
  induction exec generalizing v with
  | done uc status => exact hguest (v.uc, uc) (List.mem_singleton_self _)
  | syscall uc resume ih =>
    rw [Vcpu.stretches] at hguest
    have hfirst := hguest (v.uc, uc) (List.mem_cons_self ..)
    have hhook : Kept A R uc (Vcpu.syscallHook { v with uc := uc }).2.uc :=
      kept_hook (v := { v with uc := uc }) hd hrax
    have hhandlers := hook_handlers { v with uc := uc }
    rw [Vcpu.emulate_syscall]
    rcases hrun : Vcpu.syscallHook { v with uc := uc } with ⟨_ | e | p, v₁⟩
    · rw [hrun] at hguest hhook hhandlers
      exact (hfirst.trans hhook).trans (ih _ (hhandlers.trans hd)
        fun s hs => hguest s (List.mem_cons_of_mem _ hs))
    · rw [hrun] at hhook
      exact hfirst.trans hhook
    · rw [hrun] at hhook
      exact hfirst.trans hhook

theorem kept_op {v : Vcpu U} (hd : IsStage1 b v.dispatch) {op : Op U} (h : op.Leaves A R v) :
    Kept A R v.uc (op.exec b v).uc := by
  cases op with
  | run timeoutMs emuStart =>
    simp only [Op.exec, run_snd]
    exact kept_emulate hd h.1 h.2
  | setReg reg value => exact within_onEngine (fun uc => kept_regWrite uc h value) v
  | writeGuest addr data => exact within_onEngine (fun uc => kept_memWrite uc h) v
  | mapMemory base size prot =>
    have hmap : Act.Within (fun v v' : Vcpu U => Kept A R v.uc v'.uc)
        (Vcpu.mapMemory b base size prot) := by
      apply Act.within_bind
      · exact fun _ _ _ => Kept.trans
      · exact kept_mapRange base size 0 prot
      · exact fun _ v => kept_refl v.uc
    exact hmap v
  | mapElf image =>
    have hmap : Act.Within (fun v v' : Vcpu U => Kept A R v.uc v'.uc)
        (image.segments.forM (Vcpu.mapSegment b)) := by
      apply Act.within_forM
      · exact fun v => kept_refl v.uc
      · exact fun _ _ _ => Kept.trans
      · exact fun seg hseg => kept_mapSegment (h seg hseg)
    exact hmap v
  | setupInitialState entry stackTop => exact kept_setupInitialState v entry stackTop h.1 h.2.1 h.2.2

theorem kept_execAll {ops : List (Op U)} {v : Vcpu U} (hd : IsStage1 b v.dispatch)
    (h : LeavesAll b A R ops v) : Kept A R v.uc (execAll b ops v).uc := by
  induction ops generalizing v with
  | nil => exact kept_refl v.uc
  | cons op ops ih =>
    obtain ⟨hop, hops⟩ := h
    exact (kept_op hd hop).trans (ih ((exec_handlers b v op).trans hd) hops)

theorem readGuest_execAll {ops : List (Op U)} {v : Vcpu U} (hd : IsStage1 b v.dispatch)
    {addr : U64} {bs : List U8} (hbs : v.memory.Holds addr.toNat bs) {a : U64} {n : ℕ}
    (hn : n ≤ isizeMax) (hlo : addr.toNat ≤ a.toNat) (hhi : a.toNat + n ≤ addr.toNat + bs.length)
    (hops : LeavesAll b (span a.toNat n) ∅ ops v) :
    (execAll b ops v).readGuest a n = .ok ((bs.drop (a.toNat - addr.toNat)).take n) := by
  have hpart := hbs.slice (a.toNat - addr.toNat) n
  rw [Nat.add_sub_cancel' hlo] at hpart
  have hlen : ((bs.drop (a.toNat - addr.toNat)).take n).length = n := by
    rw [List.length_take, List.length_drop]
    omega
  refine readGuest_eq_ok.mpr ⟨hn, hlen, ?_⟩
  apply (kept_execAll hd hops).memory.holds _ hpart
  rw [hlen]

end Calls

/-! ### What was written and loaded -/

section Stays
variable {U : Type} [StoppingUnicorn U]

theorem isStage1_execAll (b : Build) (ops : List (Op U)) {v : Vcpu U}
    (hd : IsStage1 b v.dispatch) : IsStage1 b (execAll b ops v).dispatch := by
  induction ops generalizing v with
  | nil => exact hd
  | cons op ops ih => exact ih ((exec_handlers b v op).trans hd)

/-- Bytes stored with `write_guest` are read back, in whole or in part, after any further
calls and runs that leave that part alone. -/
theorem written_stays (b : Build) (trace : Option TraceSink) (uc : U) (pre post : List (Op U))
    (addr : U64) (data : List U8)
    (hwrite : (Vcpu.writeGuest addr data (execAll b pre (Vcpu.new (stage1 b trace) uc))).1 = .ok ())
    (a : U64) (n : ℕ) (hn : n ≤ isizeMax) (hlo : addr.toNat ≤ a.toNat)
    (hhi : a.toNat + n ≤ addr.toNat + data.length)
    (hpost : LeavesAll b (span a.toNat n) ∅ post
      (execAll b (pre ++ [.writeGuest addr data]) (Vcpu.new (stage1 b trace) uc))) :
    (execAll b (pre ++ .writeGuest addr data :: post) (Vcpu.new (stage1 b trace) uc)).readGuest a n =
      .ok ((data.drop (a.toNat - addr.toNat)).take n) := by
  have hsplit : pre ++ .writeGuest addr data :: post =
      (pre ++ [.writeGuest addr data]) ++ post := by
    rw [List.append_assoc, List.singleton_append]
  rw [hsplit, execAll_append]
  have hd := isStage1_execAll b (pre ++ [.writeGuest addr data])
    (v := Vcpu.new (stage1 b trace) uc) (stage1_isStage1 b trace)
  apply readGuest_execAll hd _ hn hlo hhi hpost
  rw [execAll_append]
  generalize execAll b pre (Vcpu.new (stage1 b trace) uc) = v at hwrite
  rcases hrun : Vcpu.writeGuest addr data v with ⟨res, v'⟩
  rw [hrun] at hwrite
  obtain rfl : res = .ok () := hwrite
  obtain ⟨uc', hcall, rfl⟩ := onEngine_eq_ok.mp hrun
  show (Vcpu.writeGuest addr data v).2.memory.Holds _ _
  rw [hrun]
  show (LawfulUnicorn.space uc').contents.Holds _ _
  rw [LawfulUnicorn.space_memWrite hcall,
    AddressSpace.contents_store ((LawfulUnicorn.memWrite_ok_iff ..).mp ⟨uc', hcall⟩)]
  exact FlatMemory.holds_write _ _ _

theorem oneCall_leaves (A : Set ℕ) (timeoutMs rax rdi rsi rdx : U64) (v : Vcpu FlatEngine) :
    (Op.run timeoutMs (oneCall rax rdi rsi rdx)).Leaves A ∅ v := by
  have hsame : ∀ uc uc' : FlatEngine, uc.space = uc'.space → Kept A ∅ uc uc' := by
    intro uc uc' h
    refine ⟨?_, fun r hr => absurd hr (Set.notMem_empty r)⟩
    show FlatMemory.KeptIn A uc.space.contents uc'.space.contents
    rw [h]
    exact FlatMemory.keptIn_refl A _
  refine ⟨Set.notMem_empty _, ?_⟩
  intro s hs
  unfold Vcpu.execution oneCall Vcpu.stretches at hs
  rcases List.mem_cons.mp hs with rfl | hs
  · exact hsame _ _ rfl
  split at hs
  · rw [Vcpu.stretches, List.mem_singleton] at hs
    subst hs
    exact hsame _ _ rfl
  · cases hs

def laterCalls : List (Op FlatEngine) :=
  [.run 0 (oneCall 1 1 0x1000 2), .mapMemory 0x2000 0x1000 Prot.READ, .writeGuest 0x1001 [0x21],
    .setReg .RSP 0x3000, .run 0 (oneCall 60 7 0 0)]

theorem first_byte_stays :
    (execAll .debug ([.mapMemory 0x1000 0x1000 Prot.READ] ++
        .writeGuest 0x1000 [0x68, 0x69] :: laterCalls) twoRunsFresh).readGuest 0x1000 1 =
      .ok [0x68] := by
  apply written_stays .debug (some TraceSink.new) FlatEngine.new _ laterCalls 0x1000 [0x68, 0x69]
    (by decide +kernel) 0x1000 1 (by decide) (by decide) (by decide)
  have hapart : Disjoint (span 0x1001 1) (span 0x1000 1) := disjoint_span_iff.mpr (by decide)
  exact ⟨oneCall_leaves _ 0 1 1 0x1000 2 _, trivial, hapart,
    fun r hr => absurd hr (Set.notMem_empty r), oneCall_leaves _ 0 60 7 0 0 _, trivial⟩

/-- A register set with `set_reg` is read back after any further calls and runs that leave
it alone. -/
theorem set_stays (b : Build) (trace : Option TraceSink) (uc : U) (pre post : List (Op U))
    {r : RegisterX86} (hr : r.Named) (value : U64)
    (hpost : LeavesAll b ∅ {r} post
      (execAll b (pre ++ [.setReg r value]) (Vcpu.new (stage1 b trace) uc))) :
    (execAll b (pre ++ .setReg r value :: post) (Vcpu.new (stage1 b trace) uc)).reg r =
      .ok value := by
  have hsplit : pre ++ .setReg r value :: post = (pre ++ [.setReg r value]) ++ post := by
    rw [List.append_assoc, List.singleton_append]
  rw [hsplit, execAll_append]
  have hd := isStage1_execAll b (pre ++ [.setReg r value])
    (v := Vcpu.new (stage1 b trace) uc) (stage1_isStage1 b trace)
  have hkept := (kept_execAll hd hpost).regs r rfl hr
  have hset : Unicorn.regRead (execAll b (pre ++ [.setReg r value])
      (Vcpu.new (stage1 b trace) uc)).uc r = .ok value := by
    rw [execAll_append]
    generalize execAll b pre (Vcpu.new (stage1 b trace) uc) = v
    obtain ⟨uc', hwrite⟩ := LawfulUnicorn.regWrite_ok v.uc hr value
    show Unicorn.regRead (Vcpu.setReg r value v).2.uc r = _
    rw [show Vcpu.setReg r value v = (.ok (), { v with uc := uc' }) from
      onEngine_eq_ok.mpr ⟨uc', hwrite, rfl⟩]
    exact LawfulUnicorn.regRead_regWrite hr hwrite
  unfold Vcpu.reg
  rw [hkept, hset]

theorem rdi_stays :
    (execAll .debug ([] ++ .setReg .RDI 5 :: [.mapMemory 0x1000 0x1000 Prot.READ,
        .writeGuest 0x1000 [0x68], .setReg .RSP 0x2000]) twoRunsFresh).reg .RDI = .ok 5 := by
  apply set_stays .debug (some TraceSink.new) FlatEngine.new [] _ (r := .RDI) trivial 5
  refine ⟨trivial, Set.disjoint_empty _, ?_, trivial⟩
  intro s hs
  rw [Set.mem_singleton_iff.mp hs]
  exact ⟨trivial, by decide⟩

theorem StartsFrom.holds {image : Image} {elf : ParsedElf} {s : AddressSpace Prot U8}
    (h : StartsFrom image elf s) {p : ProgramHeader} (hp : p ∈ elf.loads) (hsized : p.Sized)
    (hin : p.InBounds image) : s.contents.Holds p.pVaddr.toNat (p.segment image).data := by
  have hloaded := segment_loadedFrom hin hsized
  intro i hi
  rw [hloaded.length] at hi
  have hi' : i < p.pMemsz.toNat := hi
  have hrange : p.pVaddr.toNat + i ∈ p.range := by
    rw [ProgramHeader.range, mem_span]
    omega
  have hmapped : s.Mapped (p.pVaddr.toNat + i) :=
    (h.mapped _).mpr (Or.inl ⟨p, hp, Segment.mem_pages (p.segment image) hrange⟩)
  rw [AddressSpace.contents_of_mapped hmapped]
  rcases Nat.lt_or_ge i p.pFilesz.toNat with hlt | hge
  · obtain ⟨x, hx, hdata⟩ := hloaded.file i hlt
    rw [hdata, ← hx, h.file p hp i hlt]
  · rw [hloaded.bss i hge hi', h.bss p hp i hge hi']

/-- What `run_elf` loads is read back as the loader has it, part by part, after any calls
and runs that leave the part alone. -/
theorem image_stays (b : Build) (parse : Image → Except String ParsedElf) (image : Image)
    (out : LoadedElf) (hload : loadElf b parse image = .ok out) (trace : Option TraceSink) (uc : U)
    (huc : LawfulUnicorn.space uc = AddressSpace.empty) (v : Vcpu U)
    (hrun : Vcpu.prepare b out (Vcpu.new (stage1 b trace) uc) = (.ok (), v))
    (seg : Segment) (hseg : seg ∈ out.segments) (a : U64) (n : ℕ)
    (hlo : seg.vaddr.toNat ≤ a.toNat) (hhi : a.toNat + n ≤ seg.vaddr.toNat + seg.memsz.toNat)
    (ops : List (Op U)) (hops : LeavesAll b (span a.toNat n) ∅ ops v) :
    (execAll b ops v).readGuest a n =
      .ok ((seg.data.drop (a.toNat - seg.vaddr.toNat)).take n) := by
  have hvalid := loadElf_valid hload seg hseg
  obtain ⟨elf, hp, ⟨-, -, hacc⟩, hsized, hout⟩ := loadElf_eq_ok b hload
  obtain ⟨hstarts, -⟩ := prepare_starts b parse image elf out hp hload (stage1 b trace) uc huc v hrun
  have hd : IsStage1 b v.dispatch := by
    have hquiet := quiet_prepare b out (Vcpu.new (stage1 b trace) uc)
    rw [hrun] at hquiet
    rw [hquiet.dispatch]
    exact stage1_isStage1 b trace
  rw [hout] at hseg
  obtain ⟨p, hmem, rfl⟩ := List.mem_map.mp hseg
  have hholds := hstarts.holds hmem (hsized p hmem) (hacc.bounds p hmem)
  have hn : n ≤ isizeMax := by
    have := hvalid.memsz
    omega
  exact readGuest_execAll hd hholds hn hlo (hvalid.length.symm ▸ hhi) hops

/- The first two bytes of the data of `twoPages`, after a run that prints the first and a
store over the third. -/
theorem twoPages_stays :
    (execAll .debug [.run 0 (oneCall 1 1 0x4010b2 1), .writeGuest 0x4010b4 [1]]
      twoPagesReady).readGuest 0x4010b2 2 = .ok [0x2a, 0] := by
  apply image_stays .debug (fun _ => .ok twoPages.parsed) twoPagesImage twoPagesElf twoPages_loads
    none FlatEngine.new FlatEngine.space_new twoPagesReady (Prod.ext (by decide +kernel) rfl)
    ⟨0x4010b2, 16, 1, 0x2a :: List.replicate 15 0, 6, 0x1000⟩ (by decide) 0x4010b2 2 (by decide)
    (by decide)
  have hapart : Disjoint (span 0x4010b4 1) (span 0x4010b2 2) := disjoint_span_iff.mpr (by decide)
  exact ⟨oneCall_leaves _ 0 1 1 0x4010b2 1 _, hapart, trivial⟩

end Stays
end WinVpwn.Cpu
