import WinVpwn.Cpu.RunResult
import WinVpwn.Syscall.TraceComplete

/-!
# The life of a `Vcpu`

A `Vcpu` is mapped into, written to and run any number of times, over any engine
and any handlers. Its output, its trace and its bookkeeping only ever grow, and
what they hold in the end is what its syscalls put there, in their order.
-/

namespace WinVpwn.Cpu
open Rust WinVpwn.Memory WinVpwn.Elf WinVpwn.Syscall WinVpwn.Vkernel WinVpwn.Trace

namespace Event
variable {U : Type} [Unicorn U]

/-- What the handlers of `d` captured in a delivery: the context is a new one, so
nothing of an earlier delivery is in it. -/
def captured (d : Dispatch (UnicornGuest U)) (e : Event U) : List U8 :=
  (d.handle (Vcpu.hookRegs e.before) (Vcpu.hookContext e.before)).2.io.combined

def invocation? (d : Dispatch (UnicornGuest U)) (e : Event U) : Option Invocation :=
  d.invocation? (Vcpu.hookRegs e.before) e.outcome

end Event

section Lived
variable {U : Type} [Unicorn U]

/-- What a `Vcpu` goes through on the way from `v` to `v'` with the given syscalls. -/
structure Lived (v : Vcpu U) (events : List (Event U)) (v' : Vcpu U) : Prop where
  handlers : v'.dispatch.handlers = v.dispatch.handlers
  output : v'.output = v.output ++ events.flatMap (Event.captured v.dispatch)
  trace : v'.dispatch.trace = v.dispatch.trace.map fun sink =>
    ⟨sink.records ++ numberFrom sink.records.length
      (events.filterMap (Event.invocation? v.dispatch))⟩
  regions : v.regions <+: v'.regions
  claims : v.map.regions ⊆ v'.map.regions

theorem captured_congr {d d' : Dispatch (UnicornGuest U)} (h : d.handlers = d'.handlers) :
    Event.captured d = Event.captured d' := by
  funext e
  unfold Event.captured
  rw [Dispatch.handle_congr (Dispatch.find_congr h)]

theorem invocation?_congr {d d' : Dispatch (UnicornGuest U)} (h : d.handlers = d'.handlers) :
    Event.invocation? d = Event.invocation? d' := by
  funext e
  unfold Event.invocation?
  rw [Dispatch.invocation?_congr h]

theorem Lived.trans {v v₁ v₂ : Vcpu U} {es fs : List (Event U)} (h : Lived v es v₁)
    (h' : Lived v₁ fs v₂) : Lived v (es ++ fs) v₂ := by
  constructor
  case handlers => exact h'.handlers.trans h.handlers
  case output =>
    rw [h'.output, h.output, captured_congr h.handlers, List.flatMap_append, List.append_assoc]
  case trace =>
    rw [h'.trace, h.trace, invocation?_congr h.handlers, List.filterMap_append, Option.map_map]
    congr 1
    funext sink
    simp only [Function.comp_apply, List.length_append, length_numberFrom, List.append_assoc,
      numberFrom_append]
  case regions => exact h.regions.trans h'.regions
  case claims => exact fun r hr => h'.claims (h.claims hr)

/-! ### Calls that deliver nothing -/

/-- Buffers and handlers are left alone, and the bookkeeping grows. -/
structure Quiet (v v' : Vcpu U) : Prop where
  shared : v'.shared = v.shared
  dispatch : v'.dispatch = v.dispatch
  regions : v.regions <+: v'.regions
  claims : v.map.regions ⊆ v'.map.regions

omit [Unicorn U] in
theorem Quiet.refl (v : Vcpu U) : Quiet v v := ⟨rfl, rfl, List.prefix_rfl, fun _ h => h⟩

omit [Unicorn U] in
theorem Quiet.trans (v v₁ v₂ : Vcpu U) (h : Quiet v v₁) (h' : Quiet v₁ v₂) : Quiet v v₂ :=
  ⟨h'.shared.trans h.shared, h'.dispatch.trans h.dispatch, h.regions.trans h'.regions,
    fun _ hr => h'.claims (h.claims hr)⟩

theorem Quiet.lived {v v' : Vcpu U} (h : Quiet v v') : Lived v [] v' := by
  constructor
  case handlers => rw [h.dispatch]
  case output =>
    rw [List.flatMap_nil, List.append_nil]
    exact congrArg SharedState.output h.shared
  case trace =>
    rw [h.dispatch]
    cases v.dispatch.trace with
    | none => rfl
    | some sink => simp [numberFrom]
  case regions => exact h.regions
  case claims => exact h.claims

theorem insert_grows (b : Build) (base size : U64) (prot : U32) :
    Act.Within (fun m m' : MemoryMap => m.regions ⊆ m'.regions)
      (MemoryMap.insert b base size prot) := by
  intro m
  unfold MemoryMap.insert
  split_ifs with hsize
  · exact fun _ h => h
  simp only [Act.bind_apply, Act.get_apply, Act.lift_apply]
  rcases List.anyM (fun r => Region.overlaps b r base size) m.regions with (_ | _) | e | p
  · intro r hr
    exact (MemoryMap.mem_sortByBase _ _).mpr (List.mem_append_left _ hr)
  · exact fun _ h => h
  · exact fun _ h => h
  · exact fun _ h => h

omit [Unicorn U] in
theorem quiet_onEngine {α : Type} (f : String → VcpuError) (call : U → Except String α × U) :
    Act.Within Quiet (Vcpu.onEngine f call) :=
  fun _ => ⟨rfl, rfl, List.prefix_rfl, fun _ h => h⟩

theorem quiet_mapRange (b : Build) (base size : U64) (flags : U32) (prot : Prot) :
    Act.Within Quiet (Vcpu.mapRange b base size flags prot : Act (Vcpu U) VcpuError Unit) := by
  apply Act.within_bind Quiet.trans
  · intro v
    exact ⟨rfl, rfl, List.prefix_rfl, insert_grows b base size flags v.map⟩
  · exact fun _ => quiet_onEngine _ _

omit [Unicorn U] in
theorem quiet_pushRegion (region : U64 × U64 × U32) : Act.Within Quiet
    (Act.modify fun v => { v with regions := v.regions ++ [region] } :
      Act (Vcpu U) VcpuError Unit) :=
  fun _ => ⟨rfl, rfl, List.prefix_append _ _, fun _ h => h⟩

theorem quiet_mapMemory (b : Build) (base size : U64) (prot : Prot) :
    Act.Within Quiet (Vcpu.mapMemory b base size prot : Act (Vcpu U) VcpuError Unit) :=
  Act.within_bind Quiet.trans (quiet_mapRange b base size 0 prot) fun _ => quiet_pushRegion _

theorem quiet_mapSegment (b : Build) (seg : Segment) :
    Act.Within Quiet (Vcpu.mapSegment b seg : Act (Vcpu U) VcpuError Unit) := by
  apply Act.within_bind Quiet.trans (Act.within_lift Quiet.refl _)
  intro range
  apply Act.within_bind Quiet.trans (quiet_mapRange b range.1 range.2 _ _)
  intro _
  apply Act.within_bind Quiet.trans (Act.within_lift Quiet.refl _)
  intro offset
  apply Act.within_bind Quiet.trans (Act.within_lift Quiet.refl _)
  intro data
  apply Act.within_bind Quiet.trans (Act.within_lift Quiet.refl _)
  intro addr
  exact Act.within_bind Quiet.trans (quiet_onEngine _ _) fun _ => quiet_pushRegion _

theorem quiet_setupInitialState (b : Build) (entry stackTop : U64) :
    Act.Within Quiet
      (Vcpu.setupInitialState b entry stackTop : Act (Vcpu U) VcpuError Unit) := by
  apply Act.within_bind Quiet.trans (Act.within_lift Quiet.refl _)
  intro argcAddr
  apply Act.within_bind Quiet.trans (quiet_onEngine _ _)
  intro _
  exact Act.within_bind Quiet.trans (quiet_onEngine _ _) fun _ => quiet_onEngine _ _

theorem quiet_prepare (b : Build) (elf : LoadedElf) :
    Act.Within Quiet (Vcpu.prepare b elf : Act (Vcpu U) VcpuError Unit) := by
  have hmap : Act.Within Quiet (Vcpu.mapElf b elf : Act (Vcpu U) VcpuError Unit) :=
    Act.within_forM Quiet.refl Quiet.trans fun seg _ => quiet_mapSegment b seg
  apply Act.within_bind Quiet.trans hmap
  intro _
  apply Act.within_bind Quiet.trans (quiet_mapMemory b _ _ _)
  intro _
  exact quiet_setupInitialState b _ _

/-! ### Deliveries -/

theorem event_outcome (v : Vcpu U) : v.event.outcome =
    (v.dispatch.handle (Vcpu.hookRegs v.uc) (Vcpu.hookContext v.uc)).1 :=
  Dispatch.dispatch_fst ..

theorem answer_keeps (v : Vcpu U) (result : Outcome DispatchError SyscallOutcome) :
    (v.answer result).dispatch = v.dispatch ∧ (v.answer result).output = v.output ∧
      (v.answer result).regions = v.regions ∧ (v.answer result).map = v.map := by
  cases result with
  | ok o => cases o <;> exact ⟨rfl, rfl, rfl, rfl⟩
  | err e => exact ⟨rfl, rfl, rfl, rfl⟩
  | fault p => exact ⟨rfl, rfl, rfl, rfl⟩

/-- The `Vcpu` between the dispatch of a call and the answer to the guest. -/
def Vcpu.dispatched (v : Vcpu U) : Vcpu U :=
  let call := Dispatch.dispatch (Vcpu.hookRegs v.uc) (v.dispatch, Vcpu.hookContext v.uc)
  { v with
    uc := call.2.2.mem.uc
    dispatch := call.2.1
    shared := { v.shared with output := v.shared.output ++ Vcpu.capturedBy call } }

/-- How a delivery ends: the hook itself fails only where the dispatch does not return. -/
def handled : Outcome DispatchError SyscallOutcome → Outcome VcpuError Unit
  | .fault p => .fault p
  | _ => .ok ()

theorem capturedBy_eq {v : Vcpu U} (hret : v.event.outcome.Returns) :
    Vcpu.capturedBy (Dispatch.dispatch (Vcpu.hookRegs v.uc) (v.dispatch, Vcpu.hookContext v.uc)) =
      (Dispatch.dispatch (Vcpu.hookRegs v.uc)
        (v.dispatch, Vcpu.hookContext v.uc)).2.2.io.combined := by
  have hcall : (Dispatch.dispatch (Vcpu.hookRegs v.uc)
      (v.dispatch, Vcpu.hookContext v.uc)).1.Returns := hret
  unfold Vcpu.capturedBy
  cases hres : (Dispatch.dispatch (Vcpu.hookRegs v.uc) (v.dispatch, Vcpu.hookContext v.uc)).1 with
  | ok o => rfl
  | err e => rfl
  | fault p => exact absurd hres (hcall p)

theorem syscallHook_handled (v : Vcpu U) :
    Vcpu.syscallHook v = (handled v.event.outcome, v.dispatched.answer v.event.outcome) := by
  have hcall : v.event.outcome =
      (Dispatch.dispatch (Vcpu.hookRegs v.uc) (v.dispatch, Vcpu.hookContext v.uc)).1 := rfl
  rw [hcall]
  unfold Vcpu.syscallHook Vcpu.dispatched
  generalize Dispatch.dispatch (Vcpu.hookRegs v.uc) (v.dispatch, Vcpu.hookContext v.uc) = call
  obtain ⟨o | e | p, s⟩ := call
  · rfl
  · rfl
  · rfl

theorem syscallHook_returns (v : Vcpu U) (hret : v.event.outcome.Returns) :
    Vcpu.syscallHook v = (.ok (), v.dispatched.answer v.event.outcome) := by
  rw [syscallHook_handled]
  cases h : v.event.outcome with
  | ok o => rfl
  | err e => rfl
  | fault p => exact absurd h (hret p)

theorem lived_hook (v : Vcpu U) (hret : v.event.outcome.Returns) :
    Lived v [v.event] (Vcpu.syscallHook v).2 := by
  rw [syscallHook_returns v hret]
  obtain ⟨hdispatch, houtput, hregions, hmap⟩ := answer_keeps v.dispatched v.event.outcome
  constructor
  case handlers =>
    rw [hdispatch]
    exact Dispatch.dispatch_handlers ..
  case output =>
    rw [houtput, List.flatMap_singleton]
    show v.output ++ Vcpu.capturedBy _ = _
    rw [capturedBy_eq hret, Dispatch.dispatch_ctx]
    rfl
  case trace =>
    rw [hdispatch]
    show (Dispatch.dispatch _ _).2.1.trace = _
    rw [Dispatch.dispatch_appends, ← event_outcome]
    have hone : [v.event].filterMap (Event.invocation? v.dispatch) =
        (Event.invocation? v.dispatch v.event).toList := by
      rw [List.filterMap_cons]
      cases Event.invocation? v.dispatch v.event <;> rfl
    rw [hone]
    rfl
  case regions =>
    rw [hregions]
    exact List.prefix_rfl
  case claims =>
    rw [hmap]
    exact fun _ hr => hr

theorem Lived.of_engine {v v' : Vcpu U} {uc : U} {es : List (Event U)}
    (h : Lived { v with uc := uc } es v') : Lived v es v' :=
  ⟨h.handlers, h.output, h.trace, h.regions, h.claims⟩

theorem lived_emulate (exec : Execution U) (v : Vcpu U)
    (hret : ∀ e ∈ Vcpu.events exec v, e.outcome.Returns) :
    Lived v (Vcpu.events exec v) (Vcpu.emulate exec v).2 := by
  induction exec generalizing v with
  | done uc status => exact Quiet.lived ⟨rfl, rfl, List.prefix_rfl, fun _ h => h⟩
  | syscall uc resume ih =>
    rw [Vcpu.events] at hret ⊢
    have hfirst := hret _ (List.mem_cons_self ..)
    have hhook := lived_hook { v with uc := uc } hfirst
    rw [Vcpu.emulate_syscall]
    rw [syscallHook_returns _ hfirst] at hret hhook ⊢
    have hrest := ih _ _ fun e he => hret e (List.mem_cons_of_mem _ he)
    exact (hhook.trans hrest).of_engine

theorem lived_op (b : Build) (v : Vcpu U) (op : Op U)
    (hret : ∀ e ∈ op.events v, e.outcome.Returns) : Lived v (op.events v) (op.exec b v) := by
  cases op with
  | run timeoutMs emuStart =>
    simp only [Op.exec, Op.events, run_snd] at hret ⊢
    exact lived_emulate _ v hret
  | setReg reg value => exact (quiet_onEngine _ _ v).lived
  | writeGuest addr data => exact (quiet_onEngine _ _ v).lived
  | mapMemory base size prot => exact (quiet_mapMemory b base size prot v).lived
  | mapElf image =>
    exact (Act.within_forM Quiet.refl Quiet.trans (fun seg _ => quiet_mapSegment b seg) v).lived
  | setupInitialState entry stackTop =>
    exact (quiet_setupInitialState b entry stackTop v).lived

theorem lived_execAll (b : Build) (ops : List (Op U)) (v : Vcpu U)
    (hret : ∀ e ∈ eventsAll b ops v, e.outcome.Returns) :
    Lived v (eventsAll b ops v) (execAll b ops v) := by
  induction ops generalizing v with
  | nil => exact (Quiet.refl v).lived
  | cons op ops ih =>
    rw [eventsAll] at hret ⊢
    have hop := lived_op b v op fun e he => hret e (List.mem_append_left _ he)
    exact hop.trans (ih _ fun e he => hret e (List.mem_append_right _ he))

theorem execAll_append (b : Build) (pre post : List (Op U)) (v : Vcpu U) :
    execAll b (pre ++ post) v = execAll b post (execAll b pre v) :=
  List.foldl_append ..

theorem eventsAll_append (b : Build) (pre post : List (Op U)) (v : Vcpu U) :
    eventsAll b (pre ++ post) v = eventsAll b pre v ++ eventsAll b post (execAll b pre v) := by
  induction pre generalizing v with
  | nil => rfl
  | cons op pre ih =>
    rw [List.cons_append, eventsAll, eventsAll, ih, List.append_assoc]
    rfl

end Lived

/-! ### From the beginning -/

section Life
variable {U : Type} [Unicorn U]

/-- What a `Vcpu` shows after a life with the given syscalls: the captures in the
order of the syscalls, the record of each that succeeded under the next number,
and the last exit. -/
structure Accounts (d : Dispatch (UnicornGuest U)) (events : List (Event U)) (v : Vcpu U) :
    Prop where
  output : v.output = events.flatMap (Event.captured d)
  untraced : d.trace = none → v.dispatch.trace = none
  traced : ∀ sink, d.trace = some sink → ∃ new, v.dispatch.trace = some ⟨sink.records ++ new⟩ ∧
    new = numberFrom sink.records.length (events.filterMap (Event.invocation? d))
  handlers : v.dispatch.handlers = d.handlers
  reason : v.exitReason = lastExit events

/-- Over any engine and handlers, after any calls in any order, output, trace and
exit reason are those of the syscalls made, and no region or claim made on the
way is lost. -/
theorem life_accounts (b : Build) (d : Dispatch (UnicornGuest U)) (uc : U) (ops : List (Op U))
    (hret : ∀ e ∈ eventsAll b ops (Vcpu.new d uc), e.outcome.Returns) :
    Accounts d (eventsAll b ops (Vcpu.new d uc)) (execAll b ops (Vcpu.new d uc)) ∧
      ∀ pre, pre <+: ops →
        (execAll b pre (Vcpu.new d uc)).regions <+: (execAll b ops (Vcpu.new d uc)).regions ∧
        (execAll b pre (Vcpu.new d uc)).map.regions ⊆
          (execAll b ops (Vcpu.new d uc)).map.regions := by
  have hlife := lived_execAll b ops (Vcpu.new d uc) hret
  obtain ⟨hexit, -⟩ := execAll_slots b ops (Vcpu.new d uc)
  constructor
  · constructor
    case output => exact hlife.output
    case untraced =>
      intro hnone
      have htrace := hlife.trace
      rw [show (Vcpu.new d uc).dispatch = d from rfl, hnone] at htrace
      exact htrace
    case traced =>
      intro sink hsink
      have htrace := hlife.trace
      rw [show (Vcpu.new d uc).dispatch = d from rfl, hsink] at htrace
      exact ⟨_, htrace, rfl⟩
    case handlers => exact hlife.handlers
    case reason => exact hexit.trans (Option.or_none ..)
  · intro pre hpre
    obtain ⟨post, rfl⟩ := hpre
    rw [eventsAll_append] at hret
    have hrest := lived_execAll b post (execAll b pre (Vcpu.new d uc))
      fun e he => hret e (List.mem_append_right _ he)
    rw [execAll_append]
    exact ⟨hrest.regions, hrest.claims⟩

end Life

def twoRuns : List (Op FlatEngine) :=
  [.mapMemory 0x1000 0x1000 Prot.READ, .writeGuest 0x1000 [0x68, 0x69],
    .run 0 (oneCall 1 1 0x1000 2), .run 0 (oneCall 60 7 0 0)]

def twoRunsFresh : Vcpu FlatEngine := Vcpu.new (stage1 .debug (some TraceSink.new)) FlatEngine.new

example : (execAll .debug twoRuns twoRunsFresh).output = [0x68, 0x69] ∧
    (execAll .debug twoRuns twoRunsFresh).exitReason = some (.exit 7) := by
  decide +kernel

theorem twoRuns_accounts :
    Accounts (stage1 .debug (some TraceSink.new)) (eventsAll .debug twoRuns twoRunsFresh)
        (execAll .debug twoRuns twoRunsFresh) ∧
      ∀ pre, pre <+: twoRuns →
        (execAll .debug pre twoRunsFresh).regions <+:
          (execAll .debug twoRuns twoRunsFresh).regions ∧
        (execAll .debug pre twoRunsFresh).map.regions ⊆
          (execAll .debug twoRuns twoRunsFresh).map.regions :=
  life_accounts .debug (stage1 .debug (some TraceSink.new)) FlatEngine.new twoRuns
    (by decide +kernel)

end WinVpwn.Cpu
