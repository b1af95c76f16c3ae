import WinVpwn.Rust.BTreeMap
import WinVpwn.Vkernel.Mem

/-!
# The simulated process (vkernel/mod.rs, vkernel/process.rs, vkernel/io.rs)
-/

namespace WinVpwn.Vkernel
open Rust

/-! ### Captured output -/

/-- Captured stdout/stderr of a simulated process: one buffer for each file
descriptor, iterated in descriptor order. -/
structure OutputCapture where
  buffers : BTreeMap ℤ (List U8)

namespace OutputCapture

def default : OutputCapture := ⟨BTreeMap.empty⟩

/-- `write` (io.rs:17): `entry(fd).or_default().extend_from_slice(data)`. -/
def write (io : OutputCapture) (fd : ℤ) (data : List U8) : OutputCapture :=
  ⟨io.buffers.insert fd ((io.buffers.get? fd).getD [] ++ data)⟩

/-- `get` (io.rs:22). -/
def get (io : OutputCapture) (fd : ℤ) : List U8 := (io.buffers.get? fd).getD []

def stdout (io : OutputCapture) : List U8 := io.get 1

def stderr (io : OutputCapture) : List U8 := io.get 2

/-- `combined` (io.rs:37): the two standard streams in descriptor order. -/
def combined (io : OutputCapture) : List U8 :=
  io.buffers.entries.flatMap fun e => if e.1 = 1 ∨ e.1 = 2 then e.2 else []

@[simp] theorem get_write (io : OutputCapture) (fd j : ℤ) (data : List U8) :
    (io.write fd data).get j = if j = fd then io.get fd ++ data else io.get j := by
  unfold get write
  rw [BTreeMap.get?_insert]
  split <;> rfl

/- However the writes to the two streams interleave, they are read back one
after the other. -/
theorem combined_eq (io : OutputCapture) : io.combined = io.stdout ++ io.stderr :=
  io.buffers.flatMap_two_keys (by decide)

theorem combined_write_default {fd : ℤ} (hfd : fd = 1 ∨ fd = 2) (data : List U8) :
    (default.write fd data).combined = data := by
  have hempty : ∀ j, default.get j = [] := fun _ => rfl
  rw [combined_eq, stdout, stderr]
  rcases hfd with rfl | rfl <;> simp [hempty]

example : ((default.write 2 [0x65]).write 1 [0x6f]).combined = [0x6f, 0x65] := by decide

end OutputCapture

/-! ### Process and context -/

inductive ProcessState where
  | running
  | exited (code : U8)
  deriving DecidableEq, Repr

/-- Why a run ended (mod.rs:14). -/
inductive ExitReason where
  | exit (code : U8)
  | falloff (rip : U64)
  | stopped
  deriving DecidableEq, Repr

/-- The context handed to a syscall handler, over the memory backend `M` that
the source keeps behind a `Box<dyn GuestMemory>`. -/
structure Context (M : Type) where
  process : ProcessState
  mem : M
  io : OutputCapture

end WinVpwn.Vkernel
