import Choreo.Proto
import Choreo.Vm.Heap

/-!
# The memory layout of a guest

`run_riscv_impl` of `choreo-daemon/src/tools/vm.rs` gets an ELF from a source, from base64 or from a
file, checks the size of the memory, loads the ELF and hands the bounds of the heap to the guest in
the registers A2 and A3. The heap starts at a fixed address and ends below the stack, which takes
the top quarter of the memory. The segments of the ELF are not looked at.
-/

namespace Choreo

/-- The largest memory that `ckb-vm` can build. -/
def riscvMaxMemory : ℕ := 4 * 1024 * 1024

/-- The memory of a guest that does not ask for a size. -/
def defaultVmMemory : ℕ := riscvMaxMemory

/-- The instructions of a guest that does not ask for a limit. -/
def defaultMaxCycles : ℕ := 10000000

def computeHeapBounds (memorySize : ℕ) : ℕ × ℕ :=
  let stackBase := memorySize - memorySize / 4
  let heapBase := 256 * 1024
  let heapEnd := stackBase - 64 * 1024
  let heapSize := heapEnd - heapBase
  (heapBase, heapSize)

structure RunRiscVInput where
  source : Option String := none
  program : Option String := none
  programPath : Option String := none
  args : Option (List String) := none
  maxCycles : Option ℕ := none
  memorySize : Option ℕ := none

/-- A guest before its first instruction: the memory, the ELF in it and the registers A0 to A3. -/
structure GuestStart where
  elf : Bytes
  memorySize : ℕ
  maxCycles : ℕ
  a0 : ℕ
  a1 : ℕ
  a2 : ℕ
  a3 : ℕ

/-- What is outside: the formatter, the compiler, the decoder of base64, the file system, and
`ckb-vm`, which finds the segments of an ELF and loads it with its arguments. -/
structure GuestLoader where
  formatRustSource : String → String
  compile : String → Except String Bytes
  decodeBase64 : String → Except String Bytes
  fileLen : String → Except String ℕ
  readFile : String → Except String Bytes
  segments : Bytes → List Span
  loadProgram : Bytes → List Bytes → ℕ → Except String ℕ

namespace GuestLoader

variable (loader : GuestLoader)

/-- Reads an ELF from a file. -/
def readProgramFile (path : String) : Except String Bytes :=
  match loader.fileLen path with
  | .error e => .error s!"cannot read program file '{path}': {e}"
  | .ok len =>
    if riscvMaxMemory < len then
      .error (s!"program file '{path}' is {len} bytes; max supported is {riscvMaxMemory} bytes " ++
        "(ckb-vm RISCV_MAX_MEMORY)")
    else
      match loader.readFile path with
      | .error e => .error s!"cannot read program file '{path}': {e}"
      | .ok bytes => .ok bytes

/-- The command that compiles a source, as it is shown. -/
def compileCmd : String :=
  "rustc +stable --target riscv64imac-unknown-none-elf -C opt-level=2 " ++
    "-C target-feature=+b,-a --edition 2024 --color always"

def programOf (input : RunRiscVInput) : Except String Bytes :=
  match input.source.map loader.formatRustSource, input.program, input.programPath with
  | some source, none, none =>
    match loader.compile source with
    | .ok elf => .ok elf
    | .error e => .error s!"$ {compileCmd}\n{e}"
  | none, some program, none =>
    match loader.decodeBase64 program with
    | .ok elf => .ok elf
    | .error e => .error s!"base64 decode error: {e}"
  | none, none, some path => loader.readProgramFile path
  | none, none, none => .error "either 'source', 'program', or 'program_path' is required"
  | _, _, _ => .error "provide only one of 'source', 'program', or 'program_path'"

/-- Everything that happens before the first instruction, or the error of the tool. -/
def startGuest (input : RunRiscVInput) : Except String GuestStart :=
  match loader.programOf input with
  | .error e => .error e
  | .ok elf =>
    let memorySize := input.memorySize.getD defaultVmMemory
    if memorySize % 4096 ≠ 0 then .error "memory_size must be a multiple of 4096"
    else if memorySize < 512 * 1024 then .error "memory_size must be at least 512KB"
    else if riscvMaxMemory < memorySize then
      .error "memory_size cannot exceed 4MB (ckb-vm RISCV_MAX_MEMORY)"
    else
      let argsList := (input.args.getD []).map fun arg => arg.toUTF8.data.toList
      match loader.loadProgram elf argsList memorySize with
      | .error e => .error s!"failed to load program: {e}"
      | .ok sp =>
        .ok {
          elf := elf
          memorySize := memorySize
          maxCycles := input.maxCycles.getD defaultMaxCycles
          a0 := argsList.length
          a1 := sp + 8
          a2 := (computeHeapBounds memorySize).1
          a3 := (computeHeapBounds memorySize).2 }

end GuestLoader

namespace GuestStart

/-- The addresses of the heap, as the guest is told. -/
def heap (start : GuestStart) : Span := ⟨start.a2, start.a3⟩

/-- The addresses of the stack: the top quarter of the memory. -/
def stack (start : GuestStart) : Span :=
  ⟨start.memorySize - start.memorySize / 4, start.memorySize / 4⟩

end GuestStart

namespace GuestLoader

variable {loader : GuestLoader} {input : RunRiscVInput} {start : GuestStart}

theorem startGuest_spec (h : loader.startGuest input = .ok start) :
    512 * 1024 ≤ start.memorySize ∧ start.memorySize ≤ riscvMaxMemory ∧
      start.a2 = 256 * 1024 ∧
      start.a3 = start.memorySize - start.memorySize / 4 - 64 * 1024 - 256 * 1024 := by
  rw [startGuest] at h
  split at h
  · exact absurd h (by simp)
  · dsimp only at h
    split at h
    · exact absurd h (by simp)
    split at h
    · exact absurd h (by simp)
    split at h
    · exact absurd h (by simp)
    next hmin hmax =>
      split at h
      · exact absurd h (by simp)
      · obtain rfl := Except.ok.inj h
        exact ⟨Nat.le_of_not_lt hmin, Nat.le_of_not_lt hmax, rfl, rfl⟩

theorem startGuest_heap (h : loader.startGuest input = .ok start) :
    Hole.align ∣ start.a2 ∧ Hole.minSize ≤ start.a3 ∧ start.a2 ≠ 0 ∧
      start.a2 + start.a3 < 2 ^ 64 := by
  obtain ⟨hmin, hmax, hbase, hsize⟩ := startGuest_spec h
  rw [riscvMaxMemory] at hmax
  rw [hbase, hsize, Hole.minSize]
  refine ⟨⟨32768, rfl⟩, ?_, ?_, ?_⟩ <;> omega

def heapRegion (h : loader.startGuest input = .ok start) : HeapRegion where
  base := start.a2
  size := start.a3
  aligned := (startGuest_heap h).1
  minSize_le := (startGuest_heap h).2.1
  base_ne_zero := (startGuest_heap h).2.2.1
  stop_lt := (startGuest_heap h).2.2.2

/-- Heap, stack and segments: the heap is in the memory, aligned and large enough for the allocator,
and overlaps neither the stack nor a segment. -/
structure LaidOut (loader : GuestLoader) (start : GuestStart) : Prop where
  nonempty : 0 < start.heap.size
  aligned : Hole.align ∣ start.heap.start
  initialised : ∀ mem, (HoleList.init start.a2 start.a3 ⟨0, mem⟩).2 = true
  inMemory : start.heap.stop ≤ start.memorySize
  stack : ¬ start.heap.Overlaps start.stack
  segments : ∀ segment ∈ loader.segments start.elf, ¬ start.heap.Overlaps segment

/-- What a guest allocates stays in the heap, whatever it does. -/
theorem live_in_heap (h : loader.startGuest input = .ok start) {mem : ℕ → ℕ}
    {labels : List HeapLabel} {heap : GuestHeap}
    (hrun : StepSystem.run GuestHeap.step labels (GuestHeap.start (heapRegion h) mem) = some heap)
    {block : LiveBlock} (hblock : block ∈ heap.live) {x : ℕ} (hx : block.span.Covers x) :
    start.heap.Covers x := by
  have hlow : (heapRegion h).stop < 2 ^ 63 + Hole.minSize := by
    obtain ⟨-, hmax, hbase, hsize⟩ := startGuest_spec h
    rw [riscvMaxMemory] at hmax
    rw [HeapRegion.stop, heapRegion]
    dsimp only
    omega
  have hinvariant := StepSystem.invariant_of_along
    (fun label heap heap' hfits hI hstep => GuestHeap.step_invariant hI hfits hstep)
    (GuestHeap.start_invariant (heapRegion h) mem)
    (GuestHeap.along_fits_of_low hlow mem labels) hrun
  obtain ⟨-, holes, -, hvalid⟩ := GuestHeap.safe_of_invariant hinvariant
  have hmem := hvalid.block_mem block hblock
  rw [heapRegion, HeapRegion.stop] at hmem
  simp only [Span.Covers, GuestStart.heap, Span.stop] at hx hmem ⊢
  omega

/-- For every input and every ELF that is run, the regions do not overlap if and only if every
segment with memory ends at or before 256 KiB or starts at or after the end of the heap, 64 KiB
below the stack. Then no allocation of the guest has an address in a segment or in the stack. -/
theorem laidOut_iff (h : loader.startGuest input = .ok start) :
    (LaidOut loader start ↔ ∀ segment ∈ loader.segments start.elf,
      segment.size = 0 ∨ segment.start + segment.size ≤ 256 * 1024 ∨
        start.memorySize - start.memorySize / 4 - 64 * 1024 ≤ segment.start) ∧
    (LaidOut loader start → ∀ mem labels heap,
      StepSystem.run GuestHeap.step labels (GuestHeap.start (heapRegion h) mem) = some heap →
      ∀ block ∈ heap.live, ¬ block.span.Overlaps start.stack ∧
        ∀ segment ∈ loader.segments start.elf, ¬ block.span.Overlaps segment) := by
  obtain ⟨hmin, hmax, hbase, hsize⟩ := startGuest_spec h
  rw [riscvMaxMemory] at hmax
  have hsegment (segment : Span) : ¬ start.heap.Overlaps segment ↔
      segment.size = 0 ∨ segment.start + segment.size ≤ 256 * 1024 ∨
        start.memorySize - start.memorySize / 4 - 64 * 1024 ≤ segment.start := by
    rw [Span.overlaps_iff]
    simp only [GuestStart.heap, Span.stop]
    omega
  refine ⟨⟨fun hlaid segment hmem => (hsegment segment).1 (hlaid.segments segment hmem),
    fun hcond => ⟨?_, ?_, fun mem => ?_, ?_, ?_,
      fun segment hmem => (hsegment segment).2 (hcond segment hmem)⟩⟩,
    fun hlaid mem labels heap hrun block hblock => ⟨?_, ?_⟩⟩
  · simp only [GuestStart.heap]
    omega
  · exact (heapRegion h).aligned
  · have hfits : Hole.minSize ≤ start.a3 := (heapRegion h).minSize_le
    rw [HoleList.init, if_neg (Nat.not_lt.2 hfits)]
  · simp only [GuestStart.heap, Span.stop]
    omega
  · rw [Span.overlaps_iff]
    simp only [GuestStart.heap, GuestStart.stack, Span.stop]
    omega
  · rintro ⟨x, hx, hstack⟩
    exact hlaid.stack ⟨x, live_in_heap h hrun hblock hx, hstack⟩
  · rintro segment hmem ⟨x, hx, hseg⟩
    exact hlaid.segments segment hmem ⟨x, live_in_heap h hrun hblock hx, hseg⟩

/-- An ELF with eight bytes of code, and 256 KiB of static data from the address 128 KiB on. -/
def sampleElf : Bytes :=
  -- the ELF header
    [127, 69, 76, 70, 2, 1, 1, 0, 0, 0, 0, 0, 0, 0, 0, 0, 2, 0, 243, 0, 1, 0, 0, 0, 176, 0, 1, 0,
      0, 0, 0, 0, 64, 0, 0, 0, 0, 0, 0, 0, 0, 0, 0, 0, 0, 0, 0, 0, 1, 0, 0, 0, 64, 0, 56, 0, 2, 0,
      64, 0, 0, 0, 0, 0] ++
  -- the program header of the code
    [1, 0, 0, 0, 5, 0, 0, 0, 176, 0, 0, 0, 0, 0, 0, 0, 176, 0, 1, 0, 0, 0, 0, 0, 176, 0, 1, 0, 0,
      0, 0, 0, 8, 0, 0, 0, 0, 0, 0, 0, 8, 0, 0, 0, 0, 0, 0, 0, 0, 16, 0, 0, 0, 0, 0, 0] ++
  -- the program header of the data
    [1, 0, 0, 0, 6, 0, 0, 0, 184, 0, 0, 0, 0, 0, 0, 0, 0, 0, 2, 0, 0, 0, 0, 0, 0, 0, 2, 0, 0, 0,
      0, 0, 0, 0, 0, 0, 0, 0, 0, 0, 0, 0, 4, 0, 0, 0, 0, 0, 0, 16, 0, 0, 0, 0, 0, 0] ++
  -- the code, which exits
    [147, 8, 208, 5, 115, 0, 0, 0]

/-- The ELF in base64. -/
def sampleProgram : String :=
  "f0VMRgIBAQAAAAAAAAAAAAIA8wABAAAAsAABAAAAAABAAAAAAAAAAAAAAAAAAAAAAQAAAEAAOAACAEAAAAAAAAEA" ++
    "AAAFAAAAsAAAAAAAAACwAAEAAAAAALAAAQAAAAAACAAAAAAAAAAIAAAAAAAAAAAQAAAAAAAAAQAAAAYAAAC4AAAA" ++
    "AAAAAAAAAgAAAAAAAAACAAAAAAAAAAAAAAAAAAAABAAAAAAAABAAAAAAAACTCNAFcwAAAA=="

/-- The outside of a run of the ELF: `ckb-vm` finds its two segments and loads it. -/
def sampleLoader : GuestLoader where
  formatRustSource := id
  compile := fun _ => .error "compilation failed to start"
  decodeBase64 := fun text => if text = sampleProgram then .ok sampleElf else .error "Invalid byte"
  fileLen := fun _ => .error "No such file or directory"
  readFile := fun _ => .error "No such file or directory"
  segments := fun elf =>
    if elf = sampleElf then [⟨0x100b0, 8⟩, ⟨0x20000, 0x40000⟩] else []
  loadProgram := fun _ _ memorySize => .ok (memorySize - 16)

def sampleStart : GuestStart where
  elf := sampleElf
  memorySize := defaultVmMemory
  maxCycles := defaultMaxCycles
  a0 := 0
  a1 := defaultVmMemory - 8
  a2 := 262144
  a3 := 2818048

theorem startGuest_sample :
    sampleLoader.startGuest { program := some sampleProgram } = .ok sampleStart := by
  rw [startGuest, programOf]
  simp only [Option.map_none, sampleLoader, if_pos]
  rfl

/-- The regions of a guest with 256 KiB of static data are what its segments say. -/
theorem laidOut_iff_sample :
    LaidOut sampleLoader sampleStart ↔ ∀ segment ∈ sampleLoader.segments sampleElf,
      segment.size = 0 ∨ segment.start + segment.size ≤ 256 * 1024 ∨
        defaultVmMemory - defaultVmMemory / 4 - 64 * 1024 ≤ segment.start :=
  (laidOut_iff startGuest_sample).1

/-- The heap of this guest begins in the middle of its static data. -/
theorem not_laidOut_largeStatics :
    ¬ ∀ (loader : GuestLoader) (input : RunRiscVInput) (start : GuestStart),
      loader.startGuest input = .ok start → LaidOut loader start := by
  intro h
  refine (h _ _ _ startGuest_sample).segments ⟨0x20000, 0x40000⟩ ?_ ⟨0x40000, ?_, ?_⟩
  · rw [sampleLoader]
    dsimp only [sampleStart]
    rw [if_pos rfl]
    exact List.mem_cons_of_mem _ List.mem_cons_self
  · decide
  · decide

end GuestLoader

end Choreo
