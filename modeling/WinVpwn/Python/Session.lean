import WinVpwn.Cpu.Returns
import WinVpwn.Python.TimeLimit

/-!
# One call of `run_elf`

From the bytes of an executable to the dict, over any engine that behaves as
documented: when the call comes back, and what the dict then says about the run.
-/

namespace WinVpwn.Python
open Rust Lib WinVpwn.Elf WinVpwn.Cpu WinVpwn.Syscall WinVpwn.Trace WinVpwn.Vkernel

section Ready
variable {U : Type} [LawfulUnicorn U]

/-- An engine as documented: a new one has nothing mapped, and `emu_start` obeys
`emu_stop`. -/
structure Host.Lawful (h : Host U) : Prop where
  fresh : ∀ uc, h.newEngine = .ok uc → LawfulUnicorn.space uc = AddressSpace.empty
  obeys : ∀ call uc, (h.emuStart call uc).Obeys

/-! ### Getting ready -/

/-- The ways `run_elf` can fare before the run. -/
inductive Readied (h : Host U) (image : Image) : Outcome PyErr (Vcpu U) → Prop
  | badImage (e : ElfError) (hload : loadElf h.build h.parse image = .err e) :
    Readied h image (.err (.valueError e.toString))
  | noBuffer (p : Fault) (hload : loadElf h.build h.parse image = .fault p) :
    Readied h image (.fault p)
  | noEngine (elf : LoadedElf) (msg : String) (hload : loadElf h.build h.parse image = .ok elf)
    (hnew : h.newEngine = .error msg) : Readied h image (.err (toErr (.init msg)))
  | unrounded (elf : LoadedElf) (uc : U) (hload : loadElf h.build h.parse image = .ok elf)
    (hnew : h.newEngine = .ok uc) (hover : Overflows h.build elf.segments) :
    Readied h image (.fault .overflow)
  | refused (elf : LoadedElf) (uc : U) (base : U64) (reason : String)
    (hload : loadElf h.build h.parse image = .ok elf) (hnew : h.newEngine = .ok uc)
    (hbusy : ¬Fits elf.segments) (hround : ¬Overflows h.build elf.segments) :
    Readied h image (.err (toErr (.map base reason)))
  | started (elf : LoadedElf) (uc : U) (v : Vcpu U)
    (hload : loadElf h.build h.parse image = .ok elf) (hnew : h.newEngine = .ok uc)
    (hfits : Fits elf.segments) (hround : ¬Overflows h.build elf.segments)
    (hrun : Vcpu.prepare h.build elf (Vcpu.new (runDispatch h.build) uc) = (.ok (), v)) :
    Readied h image (.ok v)

theorem ready_of_engine {W : Type} [Unicorn W] (k : Host W) {image : Image} {elf : LoadedElf}
    {wc : W} (hload : loadElf k.build k.parse image = .ok elf) (hnew : k.newEngine = .ok wc) :
    ready k image =
      ((Vcpu.prepare k.build elf (Vcpu.new (runDispatch k.build) wc)).1.mapErr toErr >>= fun _ =>
        .ok (Vcpu.prepare k.build elf (Vcpu.new (runDispatch k.build) wc)).2) := by
  unfold ready
  rw [hload, hnew]
  rfl

theorem ready_segments {h : Host U} (hh : h.Lawful) {image : Image} {elf : LoadedElf} {uc : U}
    (hload : loadElf h.build h.parse image = .ok elf) (hnew : h.newEngine = .ok uc) :
    (∃ v, ready h image = .ok v ∧ Fits elf.segments ∧ ¬Overflows h.build elf.segments ∧
      Vcpu.prepare h.build elf (Vcpu.new (runDispatch h.build) uc) = (.ok (), v)) ∨
    (ready h image = .fault .overflow ∧ Overflows h.build elf.segments) ∨
    ∃ base reason, ready h image = .err (toErr (.map base reason)) ∧ ¬Fits elf.segments ∧
      ¬Overflows h.build elf.segments := by
  have hready := ready_of_engine h hload hnew
  rcases prepare_outcomes (b := h.build) (loadElf_valid hload) (runDispatch h.build)
      (hh.fresh uc hnew) with
    ⟨v, hrun, hfits, hround⟩ | ⟨⟨v, hrun⟩, hover⟩ | ⟨e, v, hrun, hmap, hbusy, hround⟩
  · refine .inl ⟨v, ?_, hfits, hround, hrun⟩
    rw [hready, hrun]
    rfl
  · refine .inr (.inl ⟨?_, hover⟩)
    rw [hready, hrun]
    rfl
  · cases e with
    | map base reason =>
      refine .inr (.inr ⟨base, reason, ?_, hbusy, hround⟩)
      rw [hready, hrun]
      rfl
    | init msg => exact hmap.elim
    | regOp msg => exact hmap.elim
    | exec msg => exact hmap.elim
    | notLoaded => exact hmap.elim

theorem ready_readied {h : Host U} (hh : h.Lawful) (image : Image) :
    Readied h image (ready h image) := by
  cases hload : loadElf h.build h.parse image with
  | err e =>
    unfold ready
    rw [hload]
    exact .badImage e hload
  | fault p =>
    unfold ready
    rw [hload]
    exact .noBuffer p hload
  | ok elf =>
    cases hnew : h.newEngine with
    | error msg =>
      unfold ready
      rw [hload, hnew]
      exact .noEngine elf msg hload hnew
    | ok uc =>
      rcases ready_segments hh hload hnew with
        ⟨v, hready, hfits, hround, hrun⟩ | ⟨hready, hover⟩ | ⟨base, reason, hready, hbusy, hround⟩
      · rw [hready]
        exact .started elf uc v hload hnew hfits hround hrun
      · rw [hready]
        exact .unrounded elf uc hload hnew hover
      · rw [hready]
        exact .refused elf uc base reason hload hnew hbusy hround

/-- A guest as `run_elf` starts it. -/
structure Started (h : Host U) (image : Image) (elf : ParsedElf) (v : Vcpu U) : Prop where
  parsed : h.parse image = .ok elf
  memory : StartsFrom image elf (LawfulUnicorn.space v.uc)
  entry : Unicorn.regRead v.uc .RIP = .ok elf.entry
  shared : v.shared = SharedState.new
  dispatch : v.dispatch = runDispatch h.build

theorem started_of_ready {h : Host U} (hh : h.Lawful) {image : Image} {v : Vcpu U}
    (hready : ready h image = .ok v) : ∃ elf, Started h image elf v := by
  have hcases := ready_readied hh image
  rw [hready] at hcases
  cases hcases with
  | started out uc v hload hnew hfits hround hrun =>
    have hvalid := loadElf_valid hload
    have hquiet := quiet_prepare h.build out (Vcpu.new (runDispatch h.build) uc)
    rw [hrun] at hquiet
    obtain ⟨hspace, hapart, hclear, hrip, -⟩ :=
      prepare_ok hvalid (runDispatch h.build) (hh.fresh uc hnew) hrun
    obtain ⟨elf, hparse, ⟨-, -, hacc⟩, hsized, rfl⟩ := loadElf_eq_ok h.build hload
    refine ⟨elf, hparse, ?_, hrip, hquiet.shared, hquiet.dispatch⟩
    rw [hspace]
    exact startsFrom_pieces rfl hacc hsized hvalid hapart hclear

theorem Started.stage1 {h : Host U} {image : Image} {elf : ParsedElf} {v : Vcpu U}
    (hs : Started h image elf v) : IsStage1 h.build v.dispatch := by
  rw [hs.dispatch]
  exact stage1_isStage1 h.build none

theorem Started.execution {h : Host U} {image : Image} {elf : ParsedElf} {v : Vcpu U}
    (hs : Started h image elf v) (timeoutMs : U64) : v.execution timeoutMs h.emuStart =
      h.emuStart ⟨elf.entry, 0xffffffffffffffff, timeoutMs, 0⟩ v.uc := by
  unfold Vcpu.execution regReadOrZero
  rw [hs.entry]

end Ready

/-! ### The records of a run -/

def stage1Name (nr : ℤ) : String :=
  if nr = 1 then "write" else if nr = 60 then "exit" else if nr = 231 then "exit_group"
  else "<unimplemented>"

/-- The `ret` of a syscall that did not fail: the length of a write, 0 for an exit,
an errno for the rest. -/
def stage1Ret (r : SyscallRegs) : ℤ :=
  if r.IsExit then 0 else if r.IsStreamWrite then r.count
  else if r.syscallNr = 1 then err EBADF else err ENOSYS

def stage1Record (seq : ℕ) (r : SyscallRegs) : TraceRecord :=
  ⟨BitVec.ofNat 64 seq, r.syscallNr, stage1Name r.syscallNr, r.args, stage1Ret r, r.rip⟩

theorem nameOf_stage1Name {M : Type} [GuestMemory M] {b : Build} {d : Dispatch M}
    (hd : IsStage1 b d) (nr : ℤ) : d.nameOf nr = stage1Name nr := by
  rw [Dispatch.nameOf, find_stage1 b hd]
  unfold stage1Name
  split_ifs <;> rfl

theorem numberFrom_filterMap {α : Type} {f : α → Option Invocation} {g : ℕ → α → TraceRecord}
    (xs : List α) (n : ℕ)
    (h : ∀ x ∈ xs, ∃ c, f x = some c ∧ ∀ i, c.numbered (BitVec.ofNat 64 i) = g i x) :
    numberFrom n (xs.filterMap f) = xs.mapIdx fun i x => g (n + i) x := by
  induction xs generalizing n with
  | nil => rfl
  | cons x xs ih =>
    obtain ⟨c, hc, hg⟩ := h x (List.mem_cons_self ..)
    rw [List.filterMap_cons_some hc, numberFrom, hg, ih _ fun y hy => h y (List.mem_cons_of_mem _ hy),
      List.mapIdx_cons]
    simp only [Nat.add_zero, Nat.add_assoc, Nat.add_comm 1]

section Records
variable {U : Type} [LawfulUnicorn U] {b : Build}

theorem event_recorded {v : Vcpu U} (hd : IsStage1 b v.dispatch)
    (hret : v.event.outcome.Returns) (hok : ¬v.event.Fails) :
    ∃ c, Event.invocation? v.dispatch v.event = some c ∧
      ∀ i, c.numbered (BitVec.ofNat 64 i) = stage1Record i v.event.regs := by
  have hout := event_outcome v
  have hname := nameOf_stage1Name hd v.event.regs.syscallNr
  have hrecord : ∀ o : SyscallOutcome, v.event.outcome = .ok o →
      TraceSink.retOf o = stage1Ret v.event.regs →
      ∃ c, Event.invocation? v.dispatch v.event = some c ∧
        ∀ i, c.numbered (BitVec.ofNat 64 i) = stage1Record i v.event.regs := by
    intro o ho hval
    refine ⟨⟨v.dispatch.nameOf v.event.regs.syscallNr, v.event.regs.syscallNr, v.event.regs.args,
      v.event.regs.rip, o⟩, ?_, fun i => ?_⟩
    · unfold Event.invocation? Dispatch.invocation?
      rw [ho]
      rfl
    · unfold Invocation.numbered stage1Record
      rw [hname, hval]
  by_cases he : v.event.regs.IsExit
  · apply hrecord (.exit (.exit v.event.regs.exitCode))
    · rw [hout]
      exact congrArg Prod.fst (handle_exit b hd _ he (Vcpu.hookContext v.uc))
    · rw [stage1Ret, if_pos he]
      rfl
  by_cases hw : v.event.regs.IsStreamWrite
  · have hcount := (event_returns_iff hd).mp hret hw
    have hread : v.event.Readable := by
      by_contra hbad
      exact hok ⟨hw, hbad⟩
    have hval := toInt_length (memBytes v.uc v.event.regs.arg1 v.event.regs.count)
      (by rw [length_memBytes]; exact hcount)
    rw [length_memBytes] at hval
    apply hrecord (.ret v.event.regs.count)
    · have hhandle := handle_write b hd v.event.regs hw (Vcpu.hookContext v.uc)
      rcases guest_read_cases b v.uc v.event.regs.arg1 hcount with ⟨-, hbytes⟩ | ⟨hbad, -⟩
      · rw [show (Vcpu.hookContext v.uc).mem = ⟨v.uc⟩ from rfl, hbytes] at hhandle
        rw [hout, show Vcpu.hookRegs v.uc = v.event.regs from rfl, hhandle]
        simp only [length_memBytes, hval]
      · exact absurd hread hbad
    · rw [stage1Ret, if_neg he, if_pos hw]
      rfl
  · apply hrecord _ _ _
    · exact .ret (if v.event.regs.syscallNr = 1 then err EBADF else err ENOSYS)
    · rw [hout]
      exact congrArg Prod.fst (handle_refused b hd _ hw he (Vcpu.hookContext v.uc))
    · rw [stage1Ret, if_neg he, if_neg hw]
      rfl

end Records

/-! ### The dict -/

section Report
variable {U : Type} [LawfulUnicorn U]

/-- What the dict says of a run with the given syscalls, which the engine ended with
`status` at `rip`. -/
structure Reports (events : List (Event U)) (status : Except String Unit) (rip : U64)
    (report : RunReport) : Prop where
  output : report.output = events.flatMap Event.written
  trace : report.trace = events.mapIdx fun i e => stage1Record i e.regs
  unfailed : ∀ e ∈ events, ¬e.Fails
  code : ∀ c, report.code = some c ↔
    ∃ e, events.getLast? = some e ∧ e.regs.IsExit ∧ c.toNat = e.regs.arg0.toNat % 256
  rip : ∀ r, report.rip = some r ↔ r = rip ∧ ∃ msg, status = .error msg ∧ Vcpu.isFalloff msg = true
  exit : report.exit = if report.code.isSome then "exit" else if report.rip.isSome then "falloff"
    else "stopped"

/- No write of a run that gave a result has failed: it would have been the last syscall
and the result of the run. -/
theorem unfailed_of_verdict {v v' : Vcpu U} {events : List (Event U)} {status : Except String Unit}
    (hstory : Story v v' events status) (hexit : v'.shared.exitReason = lastExit events)
    (herr : v'.shared.engineError = lastError events) {reason : ExitReason}
    (hres : v'.verdict status = .ok reason) : ∀ e ∈ events, ¬e.Fails := by
  intro e he hf
  rcases List.eq_nil_or_concat events with rfl | ⟨init, last, rfl⟩
  · cases he
  rw [List.concat_eq_append] at *
  rcases List.mem_append.mp he with he | he
  · exact hstory.running e (by rw [List.dropLast_concat]; exact he) (.inr hf)
  obtain rfl := List.mem_singleton.mp he
  rcases verdict_of_story hstory hexit herr with
    ⟨f, hlast, hx, -⟩ | ⟨f, -, -, hval⟩ | ⟨hnot, -, -⟩
  · rw [List.getLast?_concat, Option.some.injEq] at hlast
    subst hlast
    exact not_streamWrite_of_exit _ hx hf.1
  · rw [hval] at hres
    cases hres
  · exact hnot e List.getLast?_concat (.inr hf)

theorem reason_cases {v v' : Vcpu U} {events : List (Event U)} {status : Except String Unit}
    (hstory : Story v v' events status) (hexit : v'.shared.exitReason = lastExit events)
    (herr : v'.shared.engineError = lastError events) {reason : ExitReason}
    (hres : v'.verdict status = .ok reason) :
    (∃ e, events.getLast? = some e ∧ e.regs.IsExit ∧ status = .ok () ∧
      reason = .exit e.regs.exitCode) ∨
    ((∀ e, events.getLast? = some e → ¬e.regs.IsExit) ∧ ∃ msg, status = .error msg ∧
      Vcpu.isFalloff msg = true ∧ reason = .falloff (regReadOrZero v'.uc .RIP)) ∨
    ((∀ e, events.getLast? = some e → ¬e.regs.IsExit) ∧ status = .ok () ∧ reason = .stopped) := by
  rcases verdict_of_story hstory hexit herr with
    ⟨e, he, hx, hval⟩ | ⟨e, -, -, hval⟩ | ⟨hnot, -, -⟩
  · rw [hval] at hres
    cases hres
    exact .inl ⟨e, he, hx, hstory.stopped e he (.inl hx), rfl⟩
  · rw [hval] at hres
    cases hres
  have hplain : ∀ e, events.getLast? = some e → ¬e.regs.IsExit := fun e he hx => hnot e he (.inl hx)
  cases status with
  | error msg =>
    rw [Vcpu.verdict] at hres
    split_ifs at hres with hfall
    cases hres
    exact .inr (.inl ⟨hplain, msg, rfl, hfall, rfl⟩)
  | ok _ =>
    obtain ⟨hlast, hlasterr⟩ := story_slots hstory
    have hnone : events.getLast?.bind Event.exit? = none ∧
        events.getLast?.bind Event.error? = none := by
      cases he : events.getLast? with
      | none => exact ⟨rfl, rfl⟩
      | some e => exact hstory.unslotted (List.mem_of_getLast? he) (hnot e he)
    rw [Vcpu.verdict, hexit, herr, hlast, hlasterr, hnone.1, hnone.2] at hres
    cases hres
    exact .inr (.inr ⟨hplain, rfl, rfl⟩)

theorem code_iff {e : Event U} {c : U8} (hx : e.regs.IsExit) {events : List (Event U)}
    (he : events.getLast? = some e) : some e.regs.exitCode = some c ↔
      ∃ f, events.getLast? = some f ∧ f.regs.IsExit ∧ c.toNat = f.regs.arg0.toNat % 256 := by
  rw [he]
  simp only [Option.some.injEq, exists_eq_left', hx, true_and, ← SyscallRegs.exitCode_toNat,
    BitVec.toNat_inj, eq_comm]

theorem no_code_iff {events : List (Event U)}
    (hplain : ∀ e, events.getLast? = some e → ¬e.regs.IsExit) (c : U8) : (none : Option U8) = some c ↔
      ∃ e, events.getLast? = some e ∧ e.regs.IsExit ∧ c.toNat = e.regs.arg0.toNat % 256 := by
  constructor
  · intro h
    cases h
  · intro h
    obtain ⟨e, he, hx, -⟩ := h
    exact absurd hx (hplain e he)

theorem reports_of_story {b : Build} {v v' : Vcpu U} {events : List (Event U)}
    {status : Except String Unit} (hstory : Story v v' events status)
    (hlived : Lived v events v') (hshared : v.shared = SharedState.new)
    (hdispatch : v.dispatch = runDispatch b) (hexit : v'.shared.exitReason = lastExit events)
    (herr : v'.shared.engineError = lastError events)
    (hrecorded : ∀ e ∈ events, ¬e.Fails → ∃ c, Event.invocation? v.dispatch e = some c ∧
      ∀ i, c.numbered (BitVec.ofNat 64 i) = stage1Record i e.regs)
    {reason : ExitReason} (hres : v'.verdict status = .ok reason) :
    Reports events status (regReadOrZero v'.uc .RIP) (report v' reason) := by
  have hunfailed := unfailed_of_verdict hstory hexit herr hres
  have houtput : v'.output = events.flatMap Event.written := by
    have hempty : v.output = [] := congrArg SharedState.output hshared
    rw [hstory.output, hempty, List.nil_append]
  have htrace : v'.dispatch.trace = some ⟨events.mapIdx fun i e => stage1Record i e.regs⟩ := by
    have hsink : v.dispatch.trace = some TraceSink.new := hdispatch ▸ rfl
    have hnumbered := numberFrom_filterMap (g := fun i e => stage1Record i e.regs) events 0
      fun e he => hrecorded e he (hunfailed e he)
    simp only [Nat.zero_add] at hnumbered
    rw [hlived.trace, hsink, ← hnumbered]
    rfl
  rcases reason_cases hstory hexit herr hres with
    ⟨e, he, hx, hstatus, rfl⟩ | ⟨hplain, msg, hstatus, hfall, rfl⟩ | ⟨hplain, hstatus, rfl⟩
  · refine ⟨houtput, ?_, hunfailed, fun c => code_iff hx he, fun r => ?_, rfl⟩
    · simp only [report, htrace, TraceSink.drain]
    · simp [report, hstatus]
  · refine ⟨houtput, ?_, hunfailed, fun c => ?_, fun r => ?_, rfl⟩
    · simp only [report, htrace, TraceSink.drain]
    · exact no_code_iff hplain c
    · have hmsg : ∃ m, status = .error m ∧ Vcpu.isFalloff m = true := ⟨msg, hstatus, hfall⟩
      exact ⟨fun h => ⟨(Option.some.inj h).symm, hmsg⟩, fun h => congrArg some h.1.symm⟩
  · refine ⟨houtput, ?_, hunfailed, fun c => ?_, fun r => ?_, rfl⟩
    · simp only [report, htrace, TraceSink.drain]
    · exact no_code_iff hplain c
    · simp [report, hstatus]

theorem events_recorded {b : Build} {exec : Execution U} {v : Vcpu U}
    (hd : IsStage1 b v.dispatch) (hret : ∀ e ∈ Vcpu.events exec v, e.outcome.Returns) :
    ∀ e ∈ Vcpu.events exec v, ¬e.Fails → ∃ c, Event.invocation? v.dispatch e = some c ∧
      ∀ i, c.numbered (BitVec.ofNat 64 i) = stage1Record i e.regs := by
  intro e he hok
  have hfirst := hret e he
  obtain ⟨w, rfl, hhandlers⟩ := mem_events he
  rw [← invocation?_congr hhandlers]
  exact event_recorded (hhandlers.trans hd) hfirst hok

theorem run_told {h : Host U} (hh : h.Lawful) {image : Image} {elf : ParsedElf} {v : Vcpu U}
    (hs : Started h image elf v) (timeoutMs : U64)
    (hret : ∀ e ∈ Vcpu.events (v.execution timeoutMs h.emuStart) v, e.outcome.Returns) :
    ∃ status v', Vcpu.emulate (v.execution timeoutMs h.emuStart) v = (.ok status, v') ∧
      Story v v' (Vcpu.events (v.execution timeoutMs h.emuStart) v) status ∧
      Lived v (Vcpu.events (v.execution timeoutMs h.emuStart) v) v' ∧
      v'.shared.exitReason = lastExit (Vcpu.events (v.execution timeoutMs h.emuStart) v) ∧
      v'.shared.engineError = lastError (Vcpu.events (v.execution timeoutMs h.emuStart) v) := by
  have hfit := (events_return_iff _ hs.stage1).mp hret
  have hlived := lived_emulate _ v hret
  obtain ⟨hexit, herr⟩ := Vcpu.emulate_slots (v.execution timeoutMs h.emuStart) v
  obtain ⟨status, v', hrun, hstory⟩ := emulate_story_fitting (v.execution timeoutMs h.emuStart)
    (hh.obeys _ _) hs.stage1 hfit
  rw [hrun] at hlived hexit herr
  rw [hs.shared, SharedState.new, Option.or_none] at hexit herr
  exact ⟨status, v', hrun, hstory, hlived, hexit, herr⟩

theorem finish_reports {h : Host U} (hh : h.Lawful) {image : Image} {elf : ParsedElf} {v : Vcpu U}
    (hs : Started h image elf v) {timeoutMs : U64} {result : RunReport}
    (hfinish : finish v (v.execution timeoutMs h.emuStart) = .ok result) :
    ∃ status v', Vcpu.emulate (h.emuStart ⟨elf.entry, 0xffffffffffffffff, timeoutMs, 0⟩ v.uc) v =
        (.ok status, v') ∧
      Reports (Vcpu.events (h.emuStart ⟨elf.entry, 0xffffffffffffffff, timeoutMs, 0⟩ v.uc) v)
        status (regReadOrZero v'.uc .RIP) result := by
  rw [← hs.execution]
  unfold finish at hfinish
  rcases emulate_returns (v.execution timeoutMs h.emuStart) v with
    ⟨-, hret⟩ | ⟨⟨p, v', hfault⟩, -⟩
  swap
  · rw [hfault] at hfinish
    cases hfinish
  obtain ⟨status, v', hemulate, hstory, hlived, hexit, herr⟩ := run_told hh hs timeoutMs hret
  rw [hemulate] at hfinish
  obtain ⟨reason, hres, hreport⟩ := Outcome.bind_eq_ok.mp hfinish
  have hverdict := Outcome.mapErr_eq_ok.mp hres
  cases hreport
  exact ⟨status, v', hemulate, reports_of_story hstory hlived hs.shared hs.dispatch hexit herr
    (events_recorded hs.stage1 hret) hverdict⟩

theorem started_of_runElf {h : Host U} (hh : h.Lawful) {image : Image} {timeoutMs : U64}
    {result : RunReport} (hrun : runElf h image timeoutMs = .ok result) :
    ∃ elf v, Started h image elf v ∧ finish v (v.execution timeoutMs h.emuStart) = .ok result := by
  rw [runElf_eq] at hrun
  obtain ⟨v, hready, hfinish⟩ := Outcome.bind_eq_ok.mp hrun
  obtain ⟨elf, hs⟩ := started_of_ready hh hready
  exact ⟨elf, v, hs, hfinish⟩

/-- The dict `run_elf` returns is the account of one run of the image: of its syscalls,
every one in the trace, and of how the engine ended it. -/
theorem runElf_reports (h : Host U) (hh : h.Lawful) (image : Image) (timeoutMs : U64)
    (result : RunReport) (hrun : runElf h image timeoutMs = .ok result) :
    ∃ elf v status v', Started h image elf v ∧
      Vcpu.emulate (h.emuStart ⟨elf.entry, 0xffffffffffffffff, timeoutMs, 0⟩ v.uc) v =
        (.ok status, v') ∧
      Reports (Vcpu.events (h.emuStart ⟨elf.entry, 0xffffffffffffffff, timeoutMs, 0⟩ v.uc) v)
        status (regReadOrZero v'.uc .RIP) result := by
  obtain ⟨elf, v, hs, hfinish⟩ := started_of_runElf hh hrun
  obtain ⟨status, v', hemulate, hreports⟩ := finish_reports hh hs hfinish
  exact ⟨elf, v, status, v', hs, hemulate, hreports⟩

end Report

/- `write(1, msg, 2)`, `exit_group(7)` and the message, at 0x400078. -/
def greeting : Exec64 where
  littleEndian := true
  entry := 0x400078
  programHeaders := [⟨PT_LOAD, 5, 0x78, 0x400078, 36, 36, 0x1000⟩]
  body := [0xb8, 1, 0, 0, 0, 0xbf, 1, 0, 0, 0, 0xbe, 0x9a, 0, 0x40, 0, 0xba, 2, 0, 0, 0, 0x0f, 0x05,
    0xb8, 231, 0, 0, 0, 0xbf, 7, 0, 0, 0, 0x0f, 0x05, 0x68, 0x69]

def greetingImage : Image := ⟨greeting.bytes, by decide +kernel⟩

/-- What an engine makes of that code. -/
def greetingRun (_ : EmuCall) (e : FlatEngine) : Execution FlatEngine :=
  .syscall { e with reg := fun
    | .RAX => 1
    | .RDI => 1
    | .RSI => 0x40009a
    | .RDX => 2
    | .RIP => 0x40008c
    | r => e.reg r } fun e =>
  if e.stopped then .done e (.ok ())
  else .syscall { e with reg := fun
    | .RAX => 231
    | .RDI => 7
    | .RIP => 0x400098
    | r => e.reg r } fun e => .done e (.ok ())

/- A host that runs nothing else, on any executable. -/
def hostOf (x : Exec64) : Host FlatEngine where
  build := .debug
  parse := fun _ => .ok x.parsed
  newEngine := .ok FlatEngine.new
  emuStart := greetingRun

theorem hostOf_lawful (x : Exec64) : (hostOf x).Lawful := by
  refine ⟨fun uc huc => ?_, fun call uc uc' => ?_⟩
  · cases huc
    exact FlatEngine.space_new
  · dsimp only
    by_cases hstop : uc'.stopped = true
    · rw [if_pos hstop]
      exact ⟨Execution.obeys_done uc', fun _ => ⟨uc', rfl⟩⟩
    · rw [if_neg hstop]
      exact ⟨fun uc'' => ⟨Execution.obeys_done uc'', fun _ => ⟨uc'', rfl⟩⟩,
        fun h => absurd h hstop⟩

def greetingReport : RunReport where
  exit := "exit"
  code := some 7
  rip := none
  output := [0x68, 0x69]
  trace := [⟨0, 1, "write", #v[1, 0x40009a, 2, 0, 0, 0], 2, 0x40008c⟩,
    ⟨1, 231, "exit_group", #v[7, 0x40009a, 2, 0, 0, 0], 0, 0x400098⟩]

theorem greeting_runs : runElf (hostOf greeting) greetingImage 0 = .ok greetingReport := by
  decide +kernel

theorem greeting_reported :
    ∃ elf v status v', Started (hostOf greeting) greetingImage elf v ∧
      Vcpu.emulate ((hostOf greeting).emuStart ⟨elf.entry, 0xffffffffffffffff, 0, 0⟩ v.uc) v =
        (.ok status, v') ∧
      Reports
        (Vcpu.events ((hostOf greeting).emuStart ⟨elf.entry, 0xffffffffffffffff, 0, 0⟩ v.uc) v)
        status (regReadOrZero v'.uc .RIP) greetingReport :=
  runElf_reports (hostOf greeting) (hostOf_lawful greeting) greetingImage 0 greetingReport greeting_runs

end WinVpwn.Python
