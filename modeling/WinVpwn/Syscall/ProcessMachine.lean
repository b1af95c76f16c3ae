import WinVpwn.Syscall.DispatchImpl

/-!
# The process behind the stage-1 syscalls

What the three handlers amount to: a process that is running or has ended, with
an append-only stream for each descriptor. The dispatcher refines this machine
over any memory backend whose reads are exact.
-/

namespace WinVpwn.Syscall
open Rust WinVpwn.Cpu WinVpwn.Vkernel WinVpwn.Trace

structure ProcessMachine where
  status : ProcessState
  streams : ℤ → List U8

inductive ProcessEvent where
  | wrote (fd : ℤ) (bytes : List U8)
  | ended (code : U8)
  | refused
  deriving DecidableEq, Repr

namespace ProcessMachine

def step (p : ProcessMachine) : ProcessEvent → ProcessMachine
  | .wrote fd bytes => { p with streams := fun j => if j = fd then p.streams fd ++ bytes else p.streams j }
  | .ended code => { p with status := .exited code }
  | .refused => p

def run (p : ProcessMachine) (es : List ProcessEvent) : ProcessMachine := es.foldl step p

def added (fd : ℤ) : ProcessEvent → List U8
  | .wrote j bytes => if j = fd then bytes else []
  | _ => []

theorem run_streams (p : ProcessMachine) (es : List ProcessEvent) (fd : ℤ) :
    (p.run es).streams fd = p.streams fd ++ es.flatMap (added fd) := by
  induction es generalizing p with
  | nil => simp [run]
  | cons e es ih =>
    have hstep : (p.step e).streams fd = p.streams fd ++ added fd e := by
      cases e with
      | wrote j bytes =>
        by_cases hj : fd = j
        · subst hj
          simp [step, added]
        · simp [step, added, hj, Ne.symm hj]
      | ended code => simp [step, added]
      | refused => simp [step, added]
    rw [run, List.foldl_cons]
    show ((p.step e).run es).streams fd = _
    rw [ih, hstep, List.flatMap_cons, List.append_assoc]

theorem run_status (p : ProcessMachine) (es : List ProcessEvent)
    (h : ∀ e ∈ es, ∀ code, e ≠ .ended code) : (p.run es).status = p.status := by
  induction es generalizing p with
  | nil => rfl
  | cons e es ih =>
    have hstep : (p.step e).status = p.status := by
      cases e with
      | wrote j bytes => rfl
      | ended code => exact absurd rfl (h _ (List.mem_cons_self ..) code)
      | refused => rfl
    show ((p.step e).run es).status = _
    rw [ih (p.step e) (fun e he => h e (List.mem_cons_of_mem _ he)), hstep]

end ProcessMachine

/-! ### The refinement -/

variable {M : Type}

def machineOf (ctx : Context M) : ProcessMachine := ⟨ctx.process, ctx.io.get⟩

section Refinement
variable [GuestMemory M] (b : Build) (mem : M)

def eventOf (r : SyscallRegs) : ProcessEvent :=
  if r.IsExit then .ended r.exitCode
  else if r.IsStreamWrite then
    match GuestMemory.read b mem r.arg1 r.count with
    | .ok bytes => .wrote r.fd bytes
    | _ => .refused
  else .refused

def resultOf (r : SyscallRegs) : Outcome DispatchError SyscallOutcome :=
  if r.IsExit then .ok (.exit (.exit r.exitCode))
  else if r.IsStreamWrite then
    match GuestMemory.read b mem r.arg1 r.count with
    | .ok bytes => .ok (.ret bytes.length)
    | .err _ => .err (.engine "guest memory read failed")
    | .fault p => .fault p
  else .ok (.ret (if r.syscallNr = 1 then err EBADF else err ENOSYS))

variable {mem}

/- One call: its value, its effect on the process, and memory left alone. A
call that ends in no effect leaves the whole context as it was. -/
theorem handle_refines (hread : ReadsExactly b M) {d : Dispatch M} (hd : IsStage1 b d)
    (r : SyscallRegs) (ctx : Context M) (hcount : r.count ≤ isizeMax) :
    (d.handle r ctx).1 = resultOf b ctx.mem r ∧
    machineOf (d.handle r ctx).2 = (machineOf ctx).step (eventOf b ctx.mem r) ∧
    (d.handle r ctx).2.mem = ctx.mem ∧
    (eventOf b ctx.mem r = .refused → (d.handle r ctx).2 = ctx) := by
  unfold resultOf eventOf
  by_cases he : r.IsExit
  · rw [handle_exit b hd r he, if_pos he, if_pos he]
    exact ⟨rfl, rfl, rfl, fun h => by cases h⟩
  by_cases hw : r.IsStreamWrite
  · rw [handle_write b hd r hw, if_neg he, if_neg he, if_pos hw, if_pos hw]
    rcases hread ctx.mem r.arg1 r.count hcount with ⟨bs, hbs, hlen⟩ | ⟨e, he⟩
    · rw [hbs]
      refine ⟨?_, ?_, rfl, fun h => by cases h⟩
      · simp only [toInt_length bs (hlen ▸ hcount)]
      · simp only [machineOf, ProcessMachine.step, ProcessMachine.mk.injEq, true_and]
        funext j
        exact OutputCapture.get_write ctx.io r.fd j bs
    · rw [he]
      exact ⟨rfl, rfl, rfl, fun _ => rfl⟩
  · rw [handle_refused b hd r hw he, if_neg he, if_neg he, if_neg hw, if_neg hw]
    exact ⟨rfl, rfl, rfl, fun _ => rfl⟩

theorem run_refines (hread : ReadsExactly b M) (d : Dispatch M) (hd : IsStage1 b d)
    (ctx : Context M) (calls : List SyscallRegs) (hcount : ∀ r ∈ calls, r.count ≤ isizeMax) :
    (Act.runAll Dispatch.dispatch calls (d, ctx)).1 = calls.map (resultOf b ctx.mem) ∧
    machineOf (Act.runAll Dispatch.dispatch calls (d, ctx)).2.2 =
      (machineOf ctx).run (calls.map (eventOf b ctx.mem)) ∧
    (Act.runAll Dispatch.dispatch calls (d, ctx)).2.2.mem = ctx.mem ∧
    IsStage1 b (Act.runAll Dispatch.dispatch calls (d, ctx)).2.1 := by
  induction calls generalizing d ctx with
  | nil => exact ⟨rfl, rfl, rfl, hd⟩
  | cons r rs ih =>
    obtain ⟨hval, hstep, hmem, -⟩ :=
      handle_refines b hread hd r ctx (hcount r (List.mem_cons_self ..))
    have hd' : IsStage1 b (Dispatch.dispatch r (d, ctx)).2.1 :=
      (Dispatch.dispatch_handlers d ctx r).trans hd
    have hnext : (Dispatch.dispatch r (d, ctx)).2 =
        ((Dispatch.dispatch r (d, ctx)).2.1, (d.handle r ctx).2) :=
      Prod.ext rfl (Dispatch.dispatch_ctx d ctx r)
    obtain ⟨ihval, ihrun, ihmem, ihd⟩ := ih (Dispatch.dispatch r (d, ctx)).2.1 hd'
      (d.handle r ctx).2 (fun r hr => hcount r (List.mem_cons_of_mem _ hr))
    rw [← hnext, hmem] at ihval ihrun ihmem
    rw [← hnext] at ihd
    rw [hstep] at ihrun
    simp only [Act.runAll_cons, List.map_cons, Dispatch.dispatch_fst, hval]
    exact ⟨congrArg _ ihval, ihrun, ihmem, ihd⟩

/-- The bytes a call captures for `fd`: those of a successful write to it. -/
def written (mem : M) (fd : ℤ) (r : SyscallRegs) : List U8 :=
  if r.IsStreamWrite ∧ r.fd = fd then
    match GuestMemory.read b mem r.arg1 r.count with
    | .ok bytes => bytes
    | _ => []
  else []

theorem added_eventOf (mem : M) (fd : ℤ) (r : SyscallRegs) :
    ProcessMachine.added fd (eventOf b mem r) = written b mem fd r := by
  unfold eventOf written
  by_cases he : r.IsExit
  · simp [he, not_streamWrite_of_exit r he, ProcessMachine.added]
  · by_cases hw : r.IsStreamWrite
    · cases GuestMemory.read b mem r.arg1 r.count <;> simp [he, hw, ProcessMachine.added]
    · simp [he, hw, ProcessMachine.added]

/-- The calls answered with an error or an errno. -/
def Refused (o : Outcome DispatchError SyscallOutcome) : Prop :=
  (∃ e, o = .err e) ∨ o = .ok (.ret (err EBADF)) ∨ o = .ok (.ret (err ENOSYS))

theorem eventOf_refused (mem : M) (r : SyscallRegs) (h : Refused (resultOf b mem r)) :
    eventOf b mem r = .refused := by
  unfold resultOf at h
  unfold eventOf
  by_cases he : r.IsExit
  · simp [he, Refused] at h
  by_cases hw : r.IsStreamWrite
  swap
  · simp [he, hw]
  rw [if_neg he, if_pos hw] at h ⊢
  cases hread : GuestMemory.read b mem r.arg1 r.count with
  | ok bs =>
    -- a length is never one of the two errnos
    rw [hread] at h
    rcases h with ⟨e, h⟩ | h | h
    · cases h
    · injection h with h
      injection h with h
      unfold err EBADF at h
      omega
    · injection h with h
      injection h with h
      unfold err ENOSYS at h
      omega
  | err e => rfl
  | fault p => rfl

/-- The status after calls of which only the last may be an exit. -/
def statusAfter (calls : List SyscallRegs) : ProcessState :=
  match calls.getLast? with
  | some r => if r.IsExit then .exited (BitVec.ofNat 8 (r.arg0.toNat % 256)) else .running
  | none => .running

theorem run_statusAfter (mem : M) (p : ProcessMachine) (hp : p.status = .running)
    (calls : List SyscallRegs) (hexit : ∀ r ∈ calls.dropLast, ¬r.IsExit) :
    (p.run (calls.map (eventOf b mem))).status = statusAfter calls := by
  have hquiet : ∀ r, ¬r.IsExit → ∀ code, eventOf b mem r ≠ .ended code := by
    intro r hr code
    unfold eventOf
    rw [if_neg hr]
    split
    · cases GuestMemory.read b mem r.arg1 r.count <;> simp
    · simp
  rcases List.eq_nil_or_concat calls with rfl | ⟨pre, r, rfl⟩
  · exact hp
  rw [List.concat_eq_append] at hexit ⊢
  rw [List.dropLast_concat] at hexit
  have hpre : (p.run (pre.map (eventOf b mem))).status = .running := by
    rw [ProcessMachine.run_status, hp]
    intro e he code
    obtain ⟨x, hx, rfl⟩ := List.mem_map.mp he
    exact hquiet x (hexit x hx) code
  have hrun : p.run ((pre ++ [r]).map (eventOf b mem)) =
      (p.run (pre.map (eventOf b mem))).step (eventOf b mem r) := by
    simp [ProcessMachine.run]
  rw [hrun, statusAfter, List.getLast?_concat]
  by_cases he : r.IsExit
  · have hcode : r.exitCode = BitVec.ofNat 8 (r.arg0.toNat % 256) := by
      apply BitVec.eq_of_toNat_eq
      rw [r.exitCode_toNat, BitVec.toNat_ofNat]
      omega
    simp [eventOf, he, ProcessMachine.step, hcode]
  · have hstep : ∀ e : ProcessEvent, (∀ code, e ≠ .ended code) →
        ((p.run (pre.map (eventOf b mem))).step e).status = .running := by
      intro e hne
      cases e with
      | wrote fd bytes => exact hpre
      | ended code => exact absurd rfl (hne code)
      | refused => exact hpre
    rw [hstep _ (hquiet r he)]
    simp [he]

/-- What the calls `pre` make of a context: memory is untouched, the two streams
have grown by what was written to them, and the process has ended only if the
last call ended it. -/
structure ProcessAfter (ctx : Context M) (pre : List SyscallRegs)
    (run : List (Outcome DispatchError SyscallOutcome) × (Dispatch M × Context M)) : Prop where
  results : run.1 = pre.map (resultOf b ctx.mem)
  mem : run.2.2.mem = ctx.mem
  streams : ∀ fd, run.2.2.io.get fd = ctx.io.get fd ++ pre.flatMap (written b ctx.mem fd)
  others : ∀ fd, fd ≠ 1 → fd ≠ 2 → run.2.2.io.get fd = ctx.io.get fd
  combined : run.2.2.io.combined = run.2.2.io.stdout ++ run.2.2.io.stderr
  process : run.2.2.process = statusAfter pre

theorem written_other (mem : M) (fd : ℤ) (h₁ : fd ≠ 1) (h₂ : fd ≠ 2) (calls : List SyscallRegs) :
    calls.flatMap (written b mem fd) = [] := by
  rw [List.flatMap_eq_nil_iff]
  intro r _
  unfold written
  rw [if_neg]
  intro h
  obtain ⟨⟨-, hfd⟩, rfl⟩ := h
  exact hfd.elim h₁ h₂

/-- The stage-1 dispatcher refines the process machine: at every point of a
sequence of calls up to the first exit the context is the machine's, and a call
that is refused changes nothing. -/
theorem stage1_refines_process (trace : Option TraceSink) (hread : ReadsExactly b M)
    (ctx : Context M) (hrun : ctx.process = .running) (calls : List SyscallRegs)
    (hexit : ∀ r ∈ calls.dropLast, ¬r.IsExit) (hcount : ∀ r ∈ calls, r.count ≤ isizeMax)
    (pre : List SyscallRegs) (hpre : pre <+: calls) :
    ProcessAfter b ctx pre (Act.runAll Dispatch.dispatch pre (stage1 b trace, ctx)) ∧
    ∀ r, pre ++ [r] <+: calls →
      Refused (Dispatch.dispatch r (Act.runAll Dispatch.dispatch pre (stage1 b trace, ctx)).2).1 →
      (Dispatch.dispatch r (Act.runAll Dispatch.dispatch pre (stage1 b trace, ctx)).2).2.2 =
        (Act.runAll Dispatch.dispatch pre (stage1 b trace, ctx)).2.2 := by
  have hexit' : ∀ r ∈ pre.dropLast, ¬r.IsExit := by
    intro r hr
    obtain ⟨post, rfl⟩ := hpre
    rcases post with _ | ⟨x, post⟩
    · exact hexit r (by simpa using hr)
    · apply hexit r
      rw [List.dropLast_append_of_ne_nil (List.cons_ne_nil x post)]
      exact List.mem_append_left _ (List.dropLast_subset pre hr)
  obtain ⟨hval, hmach, hmem, hd⟩ := run_refines b hread (stage1 b trace)
    (stage1_isStage1 b trace) ctx pre (fun r hr => hcount r (hpre.subset hr))
  generalize Act.runAll Dispatch.dispatch pre (stage1 b trace, ctx) = run at *
  obtain ⟨results, d, after⟩ := run
  have hstreams : ∀ fd, after.io.get fd = ctx.io.get fd ++ pre.flatMap (written b ctx.mem fd) := by
    intro fd
    have h := congrArg (fun p => p.streams fd) hmach
    simp only [ProcessMachine.run_streams, List.flatMap_map, added_eventOf] at h
    exact h
  refine ⟨⟨hval, hmem, hstreams, ?_, after.io.combined_eq, ?_⟩, ?_⟩
  · intro fd h₁ h₂
    rw [hstreams, written_other b ctx.mem fd h₁ h₂, List.append_nil]
  · have h := congrArg ProcessMachine.status hmach
    rw [run_statusAfter b ctx.mem _ hrun pre hexit'] at h
    exact h
  · intro r hr hrefused
    have hr' : r.count ≤ isizeMax := hcount r (hr.subset (by simp))
    obtain ⟨hvalr, -, -, hquiet⟩ := handle_refines b hread hd r after hr'
    rw [Dispatch.dispatch_fst, hvalr] at hrefused
    rw [Dispatch.dispatch_ctx]
    exact hquiet (eventOf_refused b after.mem r hrefused)

end Refinement

def hiThenExit : List SyscallRegs :=
  [SyscallRegs.fromRegs 1 #v[1, 0x400000, 2, 0, 0, 0] 0x401000,
    SyscallRegs.fromRegs 60 #v[263, 0, 0, 0, 0, 0] 0x401010]

def hiEngine : FlatEngine :=
  (Unicorn.memWrite 0x400000 [0x68, 0x69]
    (Unicorn.memMap 0x400000 0x1000 Prot.READ FlatEngine.new).2).2

/- In the memory of the tests, and in that of a run. -/
theorem hi_then_exit_refines :
    ProcessAfter .release
      (⟨.running, ⟨BTreeMap.empty.insert 0x400000 [0x68, 0x69]⟩, OutputCapture.default⟩ :
        Context InMemGuest)
      hiThenExit
      (Act.runAll Dispatch.dispatch hiThenExit
        (stage1 .release none,
          ⟨.running, ⟨BTreeMap.empty.insert 0x400000 [0x68, 0x69]⟩, OutputCapture.default⟩)) ∧
    ProcessAfter .release
      (⟨.running, ⟨hiEngine⟩, OutputCapture.default⟩ : Context (UnicornGuest FlatEngine)) hiThenExit
      (Act.runAll Dispatch.dispatch hiThenExit
        (stage1 .release none, ⟨.running, ⟨hiEngine⟩, OutputCapture.default⟩)) :=
  ⟨(stage1_refines_process .release none InMemGuest.readsExactly_release _ rfl _
      (by decide) (by decide) _ (List.prefix_refl _)).1,
    (stage1_refines_process .release none (UnicornGuest.readsExactly .release) _ rfl _
      (by decide) (by decide) _ (List.prefix_refl _)).1⟩

end WinVpwn.Syscall
