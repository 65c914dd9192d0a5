import Mathlib.Data.List.Rotate
import RtlsdrFt8d.CountedLoops
import RtlsdrFt8d.SymbolDithering

/-!
# The ring of DMA instructions

The DMA engine runs through 1024 instructions in a ring, which select a clock
divider and wait in turn.  `setupDMA` creates them page by page, and `txSym`
patches four of them in each of its iterations, ahead of the engine.
-/

namespace RtlsdrFt8d

open CountedLoops

/-- `struct CB`, without its reserved words. -/
structure ControlBlock where
  ti : UInt32
  sourceAd : UInt32
  destAd : UInt32
  txfrLen : UInt32
  stride : UInt32
  nextconbk : UInt32
  deriving DecidableEq

/-- `CM_GP0DIV_BUS`, the divider of the transmitted clock. -/
def cmGp0DivBus : UInt32 := 0x7e101074

/-- `PWM_BUS_BASE + 0x18`, the FIFO that paces the engine. -/
def pwmFifo : UInt32 := 0x7e20C000 + 0x18

/-! ## `setupDMA` -/

/-- The pool of locked pages, and the instructions created in it. -/
structure Dma where
  /-- `mbox.bus_addr` and `mbox.pool_cnt`. -/
  poolBusAddr : UInt32
  poolCnt : Nat
  /-- `constPage.b`. -/
  constPage : UInt32
  instrCnt : Nat
  /-- `instrs[i].b`, and the block at `instrs[i].v`. -/
  busAddrs : Nat → UInt32
  blocks : Nat → ControlBlock

namespace Dma

/-- `NEXTCONBK` of one block. -/
def link (dma : Dma) (index : Nat) (busAddr : UInt32) : Dma :=
  { dma with
    blocks := Function.update dma.blocks index
      { dma.blocks index with nextconbk := busAddr } }

/-- The block that the body of the inner loop fills in. -/
def makeBlock (constPage : UInt32) (i : Nat) (nextconbk : UInt32) : ControlBlock :=
  let instr0 : ControlBlock :=
    { sourceAd := constPage + 2048
      destAd := pwmFifo
      txfrLen := 4
      stride := 0
      ti := (1 : UInt32) <<< 6 ||| (5 : UInt32) <<< 16 ||| (1 : UInt32) <<< 26
      nextconbk }
  if i % 2 = 1 then
    { instr0 with destAd := cmGp0DivBus, stride := 4, ti := (1 : UInt32) <<< 26 }
  else instr0

def makeInstruction (instrPage : UInt32) (i : Nat) (dma : Dma) : Dma :=
  let busAddr := instrPage + UInt32.ofNat (32 * i)
  let block := makeBlock dma.constPage i (dma.blocks dma.instrCnt).nextconbk
  let made : Dma :=
    { dma with
      busAddrs := Function.update dma.busAddrs dma.instrCnt busAddr
      blocks := Function.update dma.blocks dma.instrCnt block
      instrCnt := dma.instrCnt + 1 }
  if dma.instrCnt ≠ 0 then made.link (dma.instrCnt - 1) busAddr else made

/-- `getRealMemPageFromPool`. -/
def pageAddr (dma : Dma) : UInt32 :=
  dma.poolBusAddr + UInt32.ofNat (dma.poolCnt * 4096)

/-- One page of instructions: 4096 bytes hold 128 of them. -/
def makePage (dma : Dma) : Dma :=
  loop 128 (makeInstruction dma.pageAddr) { dma with poolCnt := dma.poolCnt + 1 }

@[simp]
theorem instrCnt_makeInstruction (instrPage : UInt32) (i : Nat) (dma : Dma) :
    (makeInstruction instrPage i dma).instrCnt = dma.instrCnt + 1 := by
  simp only [makeInstruction]
  split <;> rfl

theorem instrCnt_makePage (dma : Dma) : dma.makePage.instrCnt = dma.instrCnt + 128 := by
  apply loop_invariant fun i (made : Dma) => made.instrCnt = dma.instrCnt + i
  · rfl
  · intro i _ made counted
    rw [instrCnt_makeInstruction, counted]
    rfl

/-- The loop over the pages. -/
def makePages (dma : Dma) : Dma :=
  if dma.instrCnt < 1024 then makePages dma.makePage else dma
termination_by 1024 - dma.instrCnt
decreasing_by
  have made := instrCnt_makePage dma
  omega

/-- `setupDMA`, for a pool at a bus address; `blocks` is what its memory held. -/
def setup (poolBusAddr : UInt32) (blocks : Nat → ControlBlock) : Dma :=
  let pool : Dma :=
    { poolBusAddr
      poolCnt := 1
      constPage := poolBusAddr
      instrCnt := 0
      busAddrs := fun _ => 0
      blocks }
  let dma := pool.makePages
  dma.link 1023 (dma.busAddrs 0)

/-- The instructions created so far have their roles and are linked. -/
structure Created (dma : Dma) : Prop where
  roles : ∀ index < dma.instrCnt,
    (dma.blocks index).destAd = if index % 2 = 1 then cmGp0DivBus else pwmFifo
  links : ∀ index, index + 1 < dma.instrCnt →
    (dma.blocks index).nextconbk = dma.busAddrs (index + 1)

section Link

variable (dma : Dma) (index : Nat) (busAddr : UInt32)

@[simp]
theorem instrCnt_link : (dma.link index busAddr).instrCnt = dma.instrCnt :=
  rfl

@[simp]
theorem busAddrs_link : (dma.link index busAddr).busAddrs = dma.busAddrs :=
  rfl

@[simp]
theorem destAd_link (other : Nat) :
    ((dma.link index busAddr).blocks other).destAd = (dma.blocks other).destAd := by
  by_cases same : other = index
  · simp [link, same]
  · simp [link, Function.update_of_ne same]

theorem nextconbk_link (other : Nat) :
    ((dma.link index busAddr).blocks other).nextconbk =
      if other = index then busAddr else (dma.blocks other).nextconbk := by
  by_cases same : other = index
  · simp [link, same]
  · simp [link, same]

end Link

theorem destAd_makeBlock (constPage : UInt32) (i : Nat) (nextconbk : UInt32) :
    (makeBlock constPage i nextconbk).destAd =
      if i % 2 = 1 then cmGp0DivBus else pwmFifo := by
  unfold makeBlock
  split <;> rfl

namespace Created

variable {dma : Dma}

/-- The counter of the page and that of all instructions agree on the role. -/
theorem makeInstruction (created : dma.Created) (instrPage : UInt32) {i : Nat}
    (sameParity : dma.instrCnt % 2 = i % 2) : (makeInstruction instrPage i dma).Created := by
  have roles : ∀ index < dma.instrCnt + 1,
      (Function.update dma.blocks dma.instrCnt (makeBlock dma.constPage i
        (dma.blocks dma.instrCnt).nextconbk) index).destAd =
          if index % 2 = 1 then cmGp0DivBus else pwmFifo := by
    intro index indexLt
    by_cases isNew : index = dma.instrCnt
    · rw [isNew, Function.update_self, destAd_makeBlock, sameParity]
    · rw [Function.update_of_ne isNew]
      exact created.roles index (by omega)
  unfold Dma.makeInstruction
  split
  · next notFirst =>
      constructor
      · simpa using roles
      · intro index indexLt
        simp only [instrCnt_link] at indexLt
        rw [nextconbk_link, busAddrs_link]
        split
        · next isLast =>
            have isNew : index + 1 = dma.instrCnt := by omega
            simp [isNew]
        · next notLast =>
            have early : index + 1 < dma.instrCnt := by omega
            simp only [Function.update_of_ne early.ne,
              Function.update_of_ne (Nat.lt_of_succ_lt early).ne]
            exact created.links index early
  · next first =>
      exact ⟨roles, fun index indexLt => absurd indexLt (by simp_all)⟩

theorem makePage (created : dma.Created) (even : dma.instrCnt % 2 = 0) :
    dma.makePage.Created := by
  have counted : dma.makePage.Created ∧ dma.makePage.instrCnt = dma.instrCnt + 128 := by
    apply loop_invariant fun i (made : Dma) => made.Created ∧ made.instrCnt = dma.instrCnt + i
    · exact ⟨⟨created.roles, created.links⟩, rfl⟩
    · rintro i - made ⟨created, counted⟩
      refine ⟨created.makeInstruction _ (by omega), ?_⟩
      rw [instrCnt_makeInstruction, counted]
      rfl
  exact counted.1

/-- Eight pages are made. -/
theorem makePages (created : dma.Created) (wholePages : 128 ∣ dma.instrCnt)
    (atMost : dma.instrCnt ≤ 1024) :
    dma.makePages.Created ∧ dma.makePages.instrCnt = 1024 := by
  induction dma using Dma.makePages.induct with
  | case1 dma more ih =>
      rw [Dma.makePages, if_pos more]
      have counted := instrCnt_makePage dma
      exact ih (created.makePage (by omega)) (by omega) (by omega)
  | case2 dma done =>
      rw [Dma.makePages, if_neg done]
      exact ⟨created, by omega⟩

end Created

/-- The odd instructions select the divider and the even ones wait, and the
instructions form a ring. -/
structure IsRing (dma : Dma) : Prop where
  roles : ∀ index < 1024,
    (dma.blocks index).destAd = if index % 2 = 1 then cmGp0DivBus else pwmFifo
  links : ∀ index < 1024, (dma.blocks index).nextconbk = dma.busAddrs ((index + 1) % 1024)

theorem isRing_setup (poolBusAddr : UInt32) (blocks : Nat → ControlBlock) :
    (setup poolBusAddr blocks).IsRing := by
  have none : ∀ (dma : Dma), dma.instrCnt = 0 → dma.Created := by
    intro dma empty
    constructor <;> intro index below <;> omega
  obtain ⟨created, all⟩ := (none ⟨poolBusAddr, 1, poolBusAddr, 0, fun _ => 0, blocks⟩ rfl).makePages
    (by simp) (by simp)
  constructor
  · intro index indexLt
    rw [setup, destAd_link]
    exact created.roles index (by omega)
  · intro index indexLt
    rw [setup, nextconbk_link, busAddrs_link]
    split
    · next isLast => simp [isLast]
    · next notLast =>
        rw [Nat.mod_eq_of_lt (by omega)]
        exact created.links index (by omega)

end Dma

/-! ## `txSym` -/

/-- An assignment to a field of `*instrs[index].v`. -/
inductive Patch where
  | sourceAd (index : Nat) (address : UInt32)
  | txfrLen (index : Nat) (clocks : UInt32)
  deriving DecidableEq

namespace Patch

def index : Patch → Nat
  | sourceAd index _ | txfrLen index _ => index

def apply (patch : Patch) (blocks : Nat → ControlBlock) : Nat → ControlBlock :=
  match patch with
  | sourceAd index address =>
      Function.update blocks index { blocks index with sourceAd := address }
  | txfrLen index clocks =>
      Function.update blocks index { blocks index with txfrLen := clocks }

/-- The patch fits the role that `destAd` gives its instruction. -/
def FitsRole (destAd : UInt32) : Patch → Prop
  | sourceAd index _ => index % 2 = 1 ∧ destAd = cmGp0DivBus
  | txfrLen index _ => index % 2 = 0 ∧ destAd = pwmFifo

end Patch

/-- What one iteration of `txSym` sends: the symbol, and `n_f0` and `n_f1`. -/
structure SymbolIteration where
  symNum : Nat
  lens : TxfrLens

/-- The patches of an iteration, and `bufPtr` after it. -/
def patchIteration (constPage : UInt32) (iteration : SymbolIteration) (bufPtr : Nat) :
    List Patch × Nat :=
  let f0Idx := iteration.symNum * 2
  let f1Idx := f0Idx + 1
  let bufPtr := bufPtr + 1
  let selectF0 := Patch.sourceAd bufPtr (constPage + UInt32.ofNat (f0Idx * 4))
  let bufPtr := bufPtr + 1
  let waitF0 := Patch.txfrLen bufPtr (UInt32.ofInt iteration.lens.f0)
  let bufPtr := bufPtr + 1
  let selectF1 := Patch.sourceAd bufPtr (constPage + UInt32.ofNat (f1Idx * 4))
  let bufPtr := (bufPtr + 1) % 1024
  let waitF1 := Patch.txfrLen bufPtr (UInt32.ofInt iteration.lens.f1)
  ([selectF0, waitF0, selectF1, waitF1], bufPtr)

/-- The instructions and the buffer pointer, which the callers of `txSym` keep
from symbol to symbol. -/
structure RingState where
  dma : Dma
  bufPtr : Nat

def RingState.step (state : RingState) (iteration : SymbolIteration) : RingState :=
  let (patches, bufPtr) := patchIteration state.dma.constPage iteration state.bufPtr
  { dma := { state.dma with
      blocks := patches.foldl (fun blocks patch => patch.apply blocks) state.dma.blocks }
    bufPtr }

/-- A call of `txSym`: the symbol, its share of the first setting, its clocks and
the random numbers that its iterations draw. -/
structure SymbolCall where
  symNum : Nat
  f0Ratio : Rat
  perSym : Int
  draws : List RandomDraw

def SymbolCall.iterations (call : SymbolCall) : List SymbolIteration :=
  (symbolLens call.f0Ratio call.perSym call.draws).map fun lens => ⟨call.symNum, lens⟩

abbrev RingStep :=
  EventRuns.Step RingState SymbolIteration

/-- The patches that a step makes. -/
def patchesOf (taken : RingStep) : List Patch :=
  (patchIteration taken.before.dma.constPage taken.event taken.before.bufPtr).1

/-! ## Patching around the ring -/

/-- The start of an iteration is the start of a group of four instructions. -/
structure RingState.Aligned (state : RingState) : Prop where
  isRing : state.dma.IsRing
  group : 4 ∣ state.bufPtr
  bufPtr_lt : state.bufPtr < 1024

theorem Patch.destAd_apply (patch : Patch) (blocks : Nat → ControlBlock) (index : Nat) :
    (patch.apply blocks index).destAd = (blocks index).destAd := by
  cases patch with
  | sourceAd patched _ | txfrLen patched _ =>
      by_cases same : index = patched
      · simp [apply, same]
      · simp [apply, Function.update_of_ne same]

theorem Patch.nextconbk_apply (patch : Patch) (blocks : Nat → ControlBlock) (index : Nat) :
    (patch.apply blocks index).nextconbk = (blocks index).nextconbk := by
  cases patch with
  | sourceAd patched _ | txfrLen patched _ =>
      by_cases same : index = patched
      · simp [apply, same]
      · simp [apply, Function.update_of_ne same]

/-- Patches change neither the roles of the instructions nor their links. -/
theorem Dma.IsRing.patch {dma : Dma} (isRing : dma.IsRing) (patches : List Patch) :
    Dma.IsRing { dma with
      blocks := patches.foldl (fun blocks patch => patch.apply blocks) dma.blocks } := by
  induction patches generalizing dma with
  | nil => exact isRing
  | cons patch patches ih =>
      have patched : Dma.IsRing { dma with blocks := patch.apply dma.blocks } := by
        constructor
        · intro index indexLt
          rw [Patch.destAd_apply]
          exact isRing.roles index indexLt
        · intro index indexLt
          rw [Patch.nextconbk_apply]
          exact isRing.links index indexLt
      exact ih patched

namespace RingState

variable {state : RingState}

@[simp]
theorem bufPtr_step (state : RingState) (iteration : SymbolIteration) :
    (state.step iteration).bufPtr = (state.bufPtr + 4) % 1024 :=
  rfl

theorem Aligned.step (aligned : state.Aligned) (iteration : SymbolIteration) :
    (state.step iteration).Aligned where
  isRing := aligned.isRing.patch _
  group := by
    have group := aligned.group
    rw [bufPtr_step]
    omega
  bufPtr_lt := Nat.mod_lt _ (by omega)

/-- An iteration patches the four instructions after `bufPtr`. -/
theorem Aligned.map_index_patches (aligned : state.Aligned) (iteration : SymbolIteration) :
    (patchIteration state.dma.constPage iteration state.bufPtr).1.map Patch.index =
      (List.range 4).map fun i => (state.bufPtr + 1 + i) % 1024 := by
  have group := aligned.group
  have bufPtr_lt := aligned.bufPtr_lt
  have early : ∀ i < 3, (state.bufPtr + 1 + i) % 1024 = state.bufPtr + 1 + i := by
    intro i iLt
    exact Nat.mod_eq_of_lt (by omega)
  simp only [List.range_succ, List.range_zero, List.nil_append, List.cons_append, List.map_cons,
    List.map_nil]
  rw [early 0 (by omega), early 1 (by omega), early 2 (by omega)]
  rfl

theorem fitsRole_sourceAd (isRing : state.dma.IsRing) {index : Nat} (indexLt : index < 1024)
    (odd : index % 2 = 1) (address : UInt32) :
    (Patch.sourceAd index address).FitsRole (state.dma.blocks index).destAd :=
  ⟨odd, by rw [isRing.roles index indexLt, if_pos odd]⟩

theorem fitsRole_txfrLen (isRing : state.dma.IsRing) {index : Nat} (indexLt : index < 1024)
    (even : index % 2 = 0) (clocks : UInt32) :
    (Patch.txfrLen index clocks).FitsRole (state.dma.blocks index).destAd :=
  ⟨even, by rw [isRing.roles index indexLt, if_neg (by omega)]⟩

theorem Aligned.fitsRole (aligned : state.Aligned) (iteration : SymbolIteration)
    {patch : Patch}
    (patchMem : patch ∈ (patchIteration state.dma.constPage iteration state.bufPtr).1) :
    patch.index < 1024 ∧ patch.FitsRole (state.dma.blocks patch.index).destAd := by
  have group := aligned.group
  have bufPtr_lt := aligned.bufPtr_lt
  have isRing := aligned.isRing
  simp only [patchIteration, List.mem_cons, List.not_mem_nil, or_false] at patchMem
  rcases patchMem with rfl | rfl | rfl | rfl
  · have inRing : state.bufPtr + 1 < 1024 := by omega
    exact ⟨inRing, fitsRole_sourceAd isRing inRing (by omega) _⟩
  · have inRing : state.bufPtr + 1 + 1 < 1024 := by omega
    exact ⟨inRing, fitsRole_txfrLen isRing inRing (by omega) _⟩
  · have inRing : state.bufPtr + 1 + 1 + 1 < 1024 := by omega
    exact ⟨inRing, fitsRole_sourceAd isRing inRing (by omega) _⟩
  · have inRing : (state.bufPtr + 1 + 1 + 1 + 1) % 1024 < 1024 := Nat.mod_lt _ (by omega)
    exact ⟨inRing, fitsRole_txfrLen isRing inRing (by omega) _⟩

/-- Iterations in a row patch instructions in a row. -/
theorem Aligned.map_index_steps (aligned : state.Aligned) (iterations : List SymbolIteration) :
    ((EventRuns.steps RingState.step state iterations).flatMap patchesOf).map Patch.index =
      (List.range (4 * iterations.length)).map fun i => (state.bufPtr + 1 + i) % 1024 := by
  induction iterations generalizing state with
  | nil => rfl
  | cons iteration iterations ih =>
      have here := aligned.map_index_patches iteration
      have rest := ih (aligned.step iteration)
      have size : 4 * (iteration :: iterations).length = 4 + 4 * iterations.length := by
        rw [List.length_cons]
        omega
      rw [EventRuns.steps, List.flatMap_cons, List.map_append, rest, size, List.range_add,
        List.map_append, List.map_map]
      refine congrArg₂ (· ++ ·) here (List.map_congr_left ?_)
      intro i _
      rw [Function.comp_apply, bufPtr_step]
      omega

end RingState

/-- A walk around a ring visits its places in the order of the rotated ring. -/
theorem map_add_mod_eq_rotate (size start : Nat) :
    ((List.range size).map fun i => (start + i) % size) = (List.range size).rotate start := by
  apply List.ext_getElem
  · simp
  · intro i inMap inRotated
    simp [List.getElem_rotate, Nat.add_comm]

/-- The patches of a run around the ring. -/
structure PatchesRing (start : RingState) (iterations : List SymbolIteration) : Prop where
  /-- At the start of every iteration `bufPtr` is a multiple of 4 inside the ring. -/
  aligned : ∀ taken ∈ EventRuns.steps RingState.step start iterations,
    4 ∣ taken.before.bufPtr ∧ taken.before.bufPtr < 1024
  /-- Every patch is inside the ring and fits the role of its instruction. -/
  roles : ∀ taken ∈ EventRuns.steps RingState.step start iterations, ∀ patch ∈ patchesOf taken,
    patch.index < 1024 ∧ patch.FitsRole (start.dma.blocks patch.index).destAd
  /-- Any 256 iterations in a row patch every instruction once. -/
  once : ∀ earlier window later, iterations = earlier ++ window ++ later →
    window.length = 256 → ∀ index < 1024,
      (((EventRuns.steps RingState.step (EventRuns.run RingState.step start earlier)
        window).flatMap patchesOf).map Patch.index).count index = 1

theorem aligned_run {start : RingState} (aligned : start.Aligned)
    (iterations : List SymbolIteration) :
    (EventRuns.run RingState.step start iterations).Aligned :=
  EventRuns.run_induction RingState.Aligned aligned
    (fun _ iteration aligned => aligned.step iteration) iterations

theorem patchesRing_of_aligned {start : RingState} (aligned : start.Aligned)
    (iterations : List SymbolIteration) : PatchesRing start iterations where
  aligned := by
    intro taken takenMem
    obtain ⟨earlier, later, -, before, -⟩ := EventRuns.mem_steps_iff.mp takenMem
    rw [before]
    exact ⟨(aligned_run aligned earlier).group, (aligned_run aligned earlier).bufPtr_lt⟩
  roles := by
    intro taken takenMem patch patchMem
    obtain ⟨earlier, later, -, before, -⟩ := EventRuns.mem_steps_iff.mp takenMem
    have alignedBefore : taken.before.Aligned := by
      rw [before]
      exact aligned_run aligned earlier
    obtain ⟨inRing, fits⟩ := alignedBefore.fitsRole taken.event patchMem
    rw [alignedBefore.isRing.roles _ inRing, ← aligned.isRing.roles _ inRing] at fits
    exact ⟨inRing, fits⟩
  once := by
    intro earlier window later _ length index indexLt
    have alignedBefore := aligned_run aligned earlier
    rw [alignedBefore.map_index_steps, length, map_add_mod_eq_rotate,
      (List.rotate_perm _ _).count_eq]
    exact List.count_eq_one_of_mem List.nodup_range (List.mem_range.mpr indexLt)

/-- Whatever the symbols, `txSym` patches the ring of `setupDMA` at the right
instructions. -/
theorem patchesRing_setup (poolBusAddr : UInt32) (blocks : Nat → ControlBlock)
    (calls : List SymbolCall) :
    PatchesRing ⟨Dma.setup poolBusAddr blocks, 0⟩ (calls.flatMap SymbolCall.iterations) :=
  patchesRing_of_aligned ⟨Dma.isRing_setup poolBusAddr blocks, by simp, by simp⟩ _

end RtlsdrFt8d
