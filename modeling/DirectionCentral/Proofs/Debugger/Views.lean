import Mathlib.Data.List.Nodup
import DirectionCentral.Debugger.Screen
import DirectionCentral.Proofs.Debugger.Running
import DirectionCentral.Proofs.Machine.IndexRange

/-!
# What the debugger shows of memory

The debugger shows two parts of memory: the cells around the next address, and the cells from an
address on that the user moves. The first part has the next cell in it, since the next address never
leaves memory and its end (`programLines_around_next`). The second part begins where the program's
first segment begins, which nothing keeps inside memory. Moves down only lead to cells; moves up
lead into memory sooner or later and never out of it (`Placed`). From the last address of 64 bits a
move down leads to the first one. So it depends on the moves whether a cell is shown
(`memoryPanel_of_session`), and at first none is shown of a program that begins past the end of
memory (`memoryPanel_late_segment`).
-/

namespace DirectionCentral

/-- Cells are dumped unless none is asked for or the first address is past the end of memory. -/
theorem Memory.dump_eq_nil_iff {m : Memory} {start count : UInt64} :
    m.dump start count = [] ↔ count = 0 ∨ m.size ≤ start.toNat := by
  have none : count = 0 ↔ count.toNat = 0 := UInt64.toNat_inj.symm
  rw [dump, List.map_eq_nil_iff, List.range'_eq_nil_iff, none]
  omega

namespace Debugger

variable {image : Image} {config : Configuration} {d : Debugger}

/-! ## The machine of a session -/

/-- The machine of a session has the configured number of cells. -/
theorem Undistorted.size (undistorted : Undistorted image config d) :
    d.machine.memory.size = config.memorySize.toNat := by
  rw [undistorted.machine, Machine.run_eq_steps, Machine.size_steps, freshMachine,
    Machine.size_loadImage]
  exact Machine.size_ofConfiguration _

/-- The next address of a session is in memory or at its end. -/
theorem Undistorted.next_le (undistorted : Undistorted image config d) :
    d.machine.registers.next.toNat ≤ d.machine.memory.size := by
  have fresh : (freshMachine image config).Sound :=
    (Machine.sound_ofConfiguration _).act (.loadImage image)
  rw [undistorted.machine, Machine.run_eq_steps]
  exact (Machine.steps_induction (fun _ sound => sound.step) fresh _).next_le

/-! ## The cells around the next address -/

/-- The line of the view of the program for the cell at an address. -/
def programLine (d : Debugger) (address : Nat) : ProgramLine where
  address := .ofNat address
  text := Disassembly.wordText (d.machine.memory.read (.ofNat address))
  isNext := UInt64.ofNat address == d.machine.registers.next

/-- The addresses of the view of the program: from half the lines before the next address or from
zero, up to the number of lines or the end of memory. -/
def window (d : Debugger) (count : Nat) : List Nat :=
  let first := d.machine.registers.next.toNat - count / 2
  List.range' first (min (first + count) d.machine.memory.size - first)

/-- An address in the window is that of a cell. -/
theorem lt_size_of_mem_window {count address : Nat} (member : address ∈ d.window count) :
    address < d.machine.memory.size := by
  rw [window, List.mem_range'_1] at member
  omega

/-- The next cell is in every window that has a line. -/
theorem next_mem_window {count : Nat} (positive : 1 ≤ count)
    (inside : d.machine.registers.next.toNat < d.machine.memory.size) :
    d.machine.registers.next.toNat ∈ d.window count := by
  rw [window, List.mem_range'_1]
  omega

/-- The address of a line in the window. -/
theorem address_programLine {count address : Nat} (member : address ∈ d.window count) :
    (d.programLine address).address.toNat = address :=
  UInt64.toNat_ofNat_of_lt' (Nat.lt_trans (lt_size_of_mem_window member) d.machine.memory.size_lt)

/-- A line in the window is marked just if its address is the next one. -/
theorem isNext_programLine {count address : Nat} (member : address ∈ d.window count) :
    (d.programLine address).isNext = (address == d.machine.registers.next.toNat) := by
  have exact := address_programLine member
  rw [Bool.eq_iff_iff, beq_iff_eq]
  calc (d.programLine address).isNext = true
    _ ↔ (d.programLine address).address = d.machine.registers.next := beq_iff_eq
    _ ↔ address = d.machine.registers.next.toNat := by rw [← UInt64.toNat_inj, exact]

/-- The view of the program has a line for each address of its window. -/
theorem programLines_eq (d : Debugger) (count : UInt64) :
    d.programLines count.toNat = (d.window count.toNat).map d.programLine := by
  have next := d.machine.registers.next.toNat_lt_size
  have start : (UInt64.ofNat (d.machine.registers.next.toNat - count.toNat / 2)).toNat =
      d.machine.registers.next.toNat - count.toNat / 2 := UInt64.toNat_ofNat_of_lt' (by omega)
  have length (first : Nat) : min count.toNat (d.machine.memory.size - first) =
      min (first + count.toNat) d.machine.memory.size - first := by omega
  rw [programLines, Disassembly.ofMemory, Memory.dump, UInt64.ofNat_toNat, start, length,
    List.map_map, List.map_map]
  rfl

/-- The marked lines are that of the next address, if there is such a cell. -/
theorem filter_isNext (d : Debugger) {count : UInt64} (positive : 1 ≤ count.toNat) :
    (d.programLines count.toNat).filter (·.isNext) =
      if d.machine.registers.next.toNat < d.machine.memory.size then
        [⟨d.machine.registers.next,
          Disassembly.wordText (d.machine.memory.read d.machine.registers.next), true⟩]
      else [] := by
  have marked : (d.window count.toNat).filter ((·.isNext) ∘ d.programLine) =
      (d.window count.toNat).filter (· == d.machine.registers.next.toNat) :=
    List.filter_congr fun _ member => isNext_programLine member
  rw [programLines_eq, List.filter_map, marked, List.filter_beq]
  split
  · next inside =>
    have once : (d.window count.toNat).count d.machine.registers.next.toNat = 1 :=
      List.count_eq_one_of_mem List.nodup_range' (next_mem_window positive inside)
    rw [once, List.replicate_one, List.map_singleton, programLine, UInt64.ofNat_toNat,
      beq_self_eq_true]
  · next atEnd =>
    have absent : d.machine.registers.next.toNat ∉ d.window count.toNat := fun member =>
      atEnd (lt_size_of_mem_window member)
    rw [List.count_eq_zero_of_not_mem absent]
    rfl

/-- The view of the program around the next address, in any session: the lines are consecutive
addresses with the text of what their cells hold now, from half the lines before the next address or
from zero, up to the number of lines or the end of memory. One line is marked, that of the next
address, if there is such a cell; and the next address is at the end of memory otherwise. -/
theorem programLines_around_next (image : Image) (config : Configuration) (events : List Event)
    {count : UInt64} (positive : 1 ≤ count) :
    let d := (ofImage image config).after events
    let next := d.machine.registers.next
    let size := config.memorySize.toNat
    let first := next.toNat - count.toNat / 2
    let lines := d.programLines count.toNat
    lines.map (·.address.toNat) = List.range' first (min (first + count.toNat) size - first) ∧
      (∀ line ∈ lines,
        line.text = Disassembly.wordText (d.machine.memory.read line.address)) ∧
      lines.length ≤ count.toNat ∧ next.toNat ≤ size ∧
      (next.toNat < size → lines.filter (·.isNext) =
        [⟨next, Disassembly.wordText (d.machine.memory.read next), true⟩]) ∧
      (next.toNat = size → lines.filter (·.isNext) = []) := by
  intro d next size first lines
  have undistorted : Undistorted image config d := (undistorted_ofImage image config).after events
  have cells : d.machine.memory.size = size := undistorted.size
  have lines_eq : lines = (d.window count.toNat).map d.programLine := d.programLines_eq count
  have marked := d.filter_isNext positive
  rw [cells] at marked
  refine ⟨?_, ?_, ?_, ?_, ?_, ?_⟩
  · calc lines.map (·.address.toNat)
      _ = (d.window count.toNat).map fun address => (d.programLine address).address.toNat := by
        rw [lines_eq, List.map_map]
        rfl
      _ = (d.window count.toNat).map id := List.map_congr_left fun _ => address_programLine
      _ = List.range' first (min (first + count.toNat) size - first) := by
        rw [List.map_id, window, cells]
  · rw [lines_eq, List.forall_mem_map]
    intro address _
    rfl
  · rw [lines_eq, List.length_map, window, List.length_range']
    omega
  · rw [← cells]
    exact undistorted.next_le
  · intro inside
    exact marked.trans (if_pos inside)
  · intro atEnd
    exact marked.trans (if_neg (Nat.not_lt.2 atEnd.ge))

/-- A loop in three cells, of which four lines are asked for, and a transfer to the end of memory,
with five lines: zero cuts the first view, which marks the jump that is performed next, and the end
of memory cuts the second one, which marks nothing. -/
theorem programLines_around_next_limits :
    let looping := (ofImage (.ofWords 0 [0x03000002, 0x10000000, 7]) { memorySize := 3 }).after
      [.step]
    let parked := (ofImage (.ofWords 0 [0x10000003]) { memorySize := 3 }).after [.key (.char 's')]
    (1 : UInt64) ≤ 4 ∧ (looping.programLines 4).map (·.address.toNat) = [0, 1, 2] ∧
      (looping.programLines 4).filter (·.isNext) = [⟨1, "TRA 0", true⟩] ∧
      (1 : UInt64) ≤ 5 ∧ (parked.programLines 5).map (·.address.toNat) = [1, 2] ∧
      (parked.programLines 5).filter (·.isNext) = [] := by
  intro looping parked
  have one : looping.machine.registers.next = 1 := by decide +kernel
  have three : parked.machine.registers.next = 3 := by decide +kernel
  have text : Disassembly.wordText (looping.machine.memory.read 1) = "TRA 0" := by decide +kernel
  obtain ⟨cut, -, -, -, marked, -⟩ :=
    programLines_around_next (.ofWords 0 [0x03000002, 0x10000000, 7]) { memorySize := 3 } [.step]
      (show (1 : UInt64) ≤ 4 by decide)
  obtain ⟨cutAtEnd, -, -, -, -, unmarked⟩ :=
    programLines_around_next (.ofWords 0 [0x10000003]) { memorySize := 3 } [.key (.char 's')]
      (show (1 : UInt64) ≤ 5 by decide)
  rw [one, text] at marked
  rw [one] at cut
  rw [three] at cutAtEnd unmarked
  exact ⟨by decide, cut, marked (by decide), by decide, cutAtEnd, unmarked rfl⟩

/-! ## The cells from an address on -/

/-- Whether an event moves the view of memory up: by request or by key. -/
def Event.movesUp : Event → Bool
  | .scrollUp | .key .up => true
  | _ => false

/-- Whether an event moves the view of memory down: by request or by key. -/
def Event.movesDown : Event → Bool
  | .scrollDown | .key .down => true
  | _ => false

/-- Whether a session has a move down before its first move up. -/
def downFirst (events : List Event) : Bool :=
  (events.takeWhile (!·.movesUp)).any Event.movesDown

/-- A move up is no move down. -/
theorem movesDown_of_movesUp {e : Event} (up : e.movesUp = true) : e.movesDown = false := by
  rw [Event.movesUp.eq_def] at up
  split at up
  · rfl
  · rfl
  · contradiction

/-- One more event is the first move down if there was no move up and it is one. -/
theorem downFirst_concat (events : List Event) (e : Event) :
    downFirst (events ++ [e]) = true ↔
      downFirst events = true ∨ events.countP Event.movesUp = 0 ∧ e.movesDown = true := by
  have cons (first : Event) (rest : List Event) :
      downFirst (first :: rest) = (!first.movesUp && (first.movesDown || downFirst rest)) := by
    rw [downFirst, List.takeWhile_cons]
    cases first.movesUp <;> rfl
  induction events with
  | nil =>
    rw [List.nil_append, cons]
    cases up : e.movesUp with
    | true => simp [downFirst, movesDown_of_movesUp up]
    | false => simp [downFirst]
  | cons first rest ih =>
    rw [List.cons_append, cons, cons]
    cases up : first.movesUp with
    | true => simp [up]
    | false => simp [up, ih, or_assoc]

/-- A step leaves the view of memory. -/
theorem scroll_step (d : Debugger) : d.step.scroll = d.scroll := by
  cases stopped : d.machine.registers.halted with
  | true =>
    rw [step, if_pos stopped]
    rfl
  | false =>
    obtain ⟨status, stepped⟩ := step_of_running stopped
    rw [stepped]

/-- A tick leaves the view of memory. -/
theorem scroll_tick (d : Debugger) : d.tick.scroll = d.scroll := by
  by_cases stops : d.StopsAt d.machine
  · obtain ⟨status, ticked⟩ := tick_of_stopsAt stops
    rw [ticked]
  · by_cases running : d.running = true
    · rw [tick_of_not_stopsAt running stops, scroll_step]
    · rw [tick, if_neg running]

/-- Setting or removing a breakpoint leaves the view of memory. -/
theorem scroll_toggleBreakpoint (d : Debugger) : d.toggleBreakpoint.scroll = d.scroll := by
  rw [toggleBreakpoint]
  split <;> rfl

/-- A move up leads to the address before and stops at zero. -/
theorem toNat_scroll_scrollUp (d : Debugger) :
    d.scrollUp.scroll.toNat = d.scroll.toNat - 1 := by
  rw [scrollUp]
  split
  · next zero =>
    rw [zero]
    rfl
  · next above =>
    have nonzero : d.scroll.toNat ≠ 0 := fun zero => above (UInt64.toNat_inj.1 zero)
    have positive : 1 ≤ d.scroll := UInt64.le_iff_toNat_le.2 (Nat.pos_of_ne_zero nonzero)
    exact UInt64.toNat_sub_of_le _ _ positive

/-- A move down leads to the address after if there is such a cell; after the last address comes the
first one. -/
theorem toNat_scroll_scrollDown (d : Debugger) :
    d.scrollDown.scroll.toNat =
      if (d.scroll.toNat + 1) % 2 ^ 64 < d.machine.memory.size then (d.scroll.toNat + 1) % 2 ^ 64
      else d.scroll.toNat := by
  have after : (d.scroll + 1).toNat = (d.scroll.toNat + 1) % 2 ^ 64 := UInt64.toNat_add ..
  rw [scrollDown, after]
  split
  · exact after
  · rfl

/-- An event that moves the view up does only that. -/
theorem handle_of_movesUp {e : Event} (up : e.movesUp = true) : d.handle e = d.scrollUp := by
  rw [Event.movesUp.eq_def] at up
  split at up
  · rfl
  · rfl
  · contradiction

/-- An event that moves the view down does only that. -/
theorem handle_of_movesDown {e : Event} (down : e.movesDown = true) :
    d.handle e = d.scrollDown := by
  rw [Event.movesDown.eq_def] at down
  split at down
  · rfl
  · rfl
  · contradiction

/-- A key other than the arrows leaves the view of memory. -/
theorem scroll_press {key : Key} (noUp : key ≠ .up) (noDown : key ≠ .down) :
    (d.press key).scroll = d.scroll := by
  rw [press.eq_def]
  split
  case h_2 => exact scroll_step _
  case h_5 => exact d.scroll_toggleBreakpoint
  case h_7 | h_8 => contradiction
  all_goals rfl

/-- An event that does not move the view leaves it. -/
theorem scroll_handle {e : Event} (noUp : e.movesUp = false) (noDown : e.movesDown = false) :
    (d.handle e).scroll = d.scroll := by
  cases e with
  | key key =>
    apply scroll_press
    · rintro rfl
      contradiction
    · rintro rfl
      contradiction
  | tick => exact d.scroll_tick
  | step => exact d.scroll_step
  | toggleBreakpoint => exact d.scroll_toggleBreakpoint
  | scrollUp | scrollDown => contradiction
  | run | reset => rfl

/-- The address at which the first segment of a program begins; zero if there is no segment. -/
def firstAddress (image : Image) : Nat :=
  match image.segments with
  | [] => 0
  | first :: _ => first.start.toNat

/-- The first segment begins at an address of 64 bits. -/
theorem firstAddress_lt (image : Image) : firstAddress image < 2 ^ 64 := by
  rw [firstAddress]
  split
  · decide
  · exact UInt64.toNat_lt _

/-- At first the view of memory begins with the first segment. -/
theorem toNat_scroll_ofImage (image : Image) (config : Configuration) :
    (ofImage image config).scroll.toNat = firstAddress image := by
  obtain ⟨segments⟩ := image
  cases segments <;> rfl

/-- Where the view of a memory of `size` cells begins after `ups` moves up from `start`. Moves down
matter if one of them turned from the last address to the first one. -/
structure Placed (size start ups : Nat) (turned : Prop) (scroll : Nat) : Prop where
  /-- It begins at a cell just if the moves up could lead there or a move down turned. -/
  cell : scroll < size ↔ start < size + ups ∨ turned
  /-- Otherwise it begins as many addresses before the start. -/
  past : size ≤ scroll → scroll + ups = start

namespace Placed

variable {size start ups scroll : Nat} {turned : Prop}

/-- At first the view begins where it is placed. -/
theorem first (size start : Nat) : Placed size start 0 False start := by
  constructor
  · simp
  · exact fun _ => rfl

/-- A move up leads into memory from the end of it, and never out of memory. -/
theorem up (placed : Placed size start ups turned scroll) (nonempty : 1 ≤ size) :
    Placed size start (ups + 1) turned (scroll - 1) where
  cell := by
    by_cases inside : scroll < size
    · have reached := placed.cell.1 inside
      exact iff_of_true (by omega) (reached.imp_left fun below => by omega)
    · have moved := placed.past (not_lt.1 inside)
      have straight : ¬ turned := fun turns => inside (placed.cell.2 (.inr turns))
      simp only [straight, or_false]
      omega
  past outside := by
    have moved := placed.past (by omega)
    omega

/-- A move down leads from a cell to a cell, from the last address to the first one, and from
elsewhere nowhere. -/
theorem down (placed : Placed size start ups turned scroll) (nonempty : 1 ≤ size)
    (small : size < 2 ^ 64) (near : start < 2 ^ 64) :
    Placed size start ups (turned ∨ start = 2 ^ 64 - 1 ∧ ups = 0)
      (if (scroll + 1) % 2 ^ 64 < size then (scroll + 1) % 2 ^ 64 else scroll) where
  cell := by
    by_cases inside : scroll < size
    · have reached := placed.cell.1 inside
      exact iff_of_true (by split <;> omega) (reached.imp_right .inl)
    · have moved := placed.past (not_lt.1 inside)
      have straight : ¬ turned := fun turns => inside (placed.cell.2 (.inr turns))
      have behind : ¬ start < size + ups := by omega
      simp only [straight, behind, false_or]
      split <;> omega
  past outside := by
    split at outside
    · omega
    · rename_i stays
      rw [if_neg stays]
      exact placed.past outside

/-- One more event leaves the view placed by the moves. -/
theorem handle {events : List Event} (nonempty : 1 ≤ d.machine.memory.size)
    (near : start < 2 ^ 64)
    (placed : Placed d.machine.memory.size start (events.countP Event.movesUp)
      (start = 2 ^ 64 - 1 ∧ downFirst events = true) d.scroll.toNat) (e : Event) :
    Placed d.machine.memory.size start ((events ++ [e]).countP Event.movesUp)
      (start = 2 ^ 64 - 1 ∧ downFirst (events ++ [e]) = true) (d.handle e).scroll.toNat := by
  have ups : (events ++ [e]).countP Event.movesUp =
      events.countP Event.movesUp + if e.movesUp then 1 else 0 := by
    rw [List.countP_append, List.countP_singleton]
  have turns : (start = 2 ^ 64 - 1 ∧ downFirst (events ++ [e]) = true) =
      ((start = 2 ^ 64 - 1 ∧ downFirst events = true) ∨
        (start = 2 ^ 64 - 1 ∧ events.countP Event.movesUp = 0) ∧ e.movesDown = true) := by
    rw [downFirst_concat, and_or_left, and_assoc]
  rw [ups, turns]
  cases up : e.movesUp with
  | true =>
    rw [handle_of_movesUp up, toNat_scroll_scrollUp, movesDown_of_movesUp up]
    simpa using placed.up nonempty
  | false =>
    cases down : e.movesDown with
    | true =>
      rw [handle_of_movesDown down, toNat_scroll_scrollDown]
      simpa using placed.down nonempty d.machine.memory.size_lt near
    | false =>
      rw [scroll_handle up down]
      simpa using placed

end Placed

/-- In any session on a memory with cells the view is placed by the moves. -/
theorem placed_after (image : Image) (config : Configuration) (nonempty : 1 ≤ config.memorySize)
    (events : List Event) :
    Placed config.memorySize.toNat (firstAddress image) (events.countP Event.movesUp)
      (firstAddress image = 2 ^ 64 - 1 ∧ downFirst events = true)
      ((ofImage image config).after events).scroll.toNat := by
  -- The induction adds events at the end: the first moves decide what later ones can do.
  induction events using List.reverseRecOn with
  | nil =>
    rw [after, List.foldl_nil, toNat_scroll_ofImage]
    simpa [downFirst] using Placed.first config.memorySize.toNat (firstAddress image)
  | append_singleton events e placed =>
    have undistorted := (undistorted_ofImage image config).after events
    have last : (ofImage image config).after (events ++ [e]) =
        ((ofImage image config).after events).handle e := List.foldl_append
    rw [← undistorted.size] at placed ⊢
    rw [last]
    have some : 1 ≤ config.memorySize.toNat := UInt64.le_iff_toNat_le.1 nonempty
    exact placed.handle (undistorted.size ▸ some) (firstAddress_lt image) e

/-- The panel of memory, in any session on a memory with cells: it shows a cell in its first row
just if the view begins in memory. That is so just if the moves up have led there from where the
program's first segment begins, or if that is the last address of 64 bits and a move down from there
came before any move up; if not, the view begins as many addresses before the segment as there were
moves up. A program that begins in memory is shown in memory always. -/
theorem memoryPanel_of_session (image : Image) (config : Configuration)
    (nonempty : 1 ≤ config.memorySize) (events : List Event) :
    let d := (ofImage image config).after events
    let size := config.memorySize.toNat
    let start := firstAddress image
    let ups := events.countP Event.movesUp
    d.machine.memory.size = size ∧
      (d.scroll.toNat < size ↔
        start < size + ups ∨ start = 2 ^ 64 - 1 ∧ downFirst events = true) ∧
      (size ≤ d.scroll.toNat → d.scroll.toNat + ups = start) ∧
      ∀ rows : UInt64, 1 ≤ rows →
        ((d.memoryPanel rows.toNat).lines ≠ [] ↔ d.scroll.toNat < size) := by
  intro d size start ups
  have undistorted : Undistorted image config d := (undistorted_ofImage image config).after events
  have placed := placed_after image config nonempty events
  refine ⟨undistorted.size, placed.cell, placed.past, fun rows some => ?_⟩
  have shown : rows ≠ 0 := by
    rintro rfl
    contradiction
  rw [memoryPanel, ne_eq, List.map_eq_nil_iff, UInt64.ofNat_toNat, Memory.dump_eq_nil_iff,
    undistorted.size]
  simp [shown, size]

/-- A program that begins at address 4 over a memory of three cells: after one move up the view
still begins past the end, whence no move down leads on, and after another move up at the last cell.
From the last address of all a move down leads to the first cell, where the view stays; after a move
up it leads nowhere. -/
theorem memoryPanel_of_session_late_segment :
    let d := ofImage (.ofWords 4 [7]) { memorySize := 3 }
    let last := ofImage (.ofWords 0xFFFFFFFFFFFFFFFF [7]) { memorySize := 1 }
    (1 : UInt64) ≤ 3 ∧ (1 : UInt64) ≤ 10 ∧
      ((d.after [.key .up, .tick, .key .down]).memoryPanel 10).lines = [] ∧
      ((d.after [.key .up, .tick, .scrollUp]).memoryPanel 10).lines ≠ [] ∧
      ((last.after [.key .down, .key .up]).memoryPanel 10).lines ≠ [] ∧
      ((last.after [.key .up, .key .down]).memoryPanel 10).lines = [] := by
  intro d last
  have before := memoryPanel_of_session (.ofWords 4 [7]) { memorySize := 3 } (by decide)
    [.key .up, .tick, .key .down]
  have reached := memoryPanel_of_session (.ofWords 4 [7]) { memorySize := 3 } (by decide)
    [.key .up, .tick, .scrollUp]
  have turned := memoryPanel_of_session (.ofWords 0xFFFFFFFFFFFFFFFF [7]) { memorySize := 1 }
    (by decide) [.key .down, .key .up]
  have lost := memoryPanel_of_session (.ofWords 0xFFFFFFFFFFFFFFFF [7]) { memorySize := 1 }
    (by decide) [.key .up, .key .down]
  refine ⟨by decide, by decide, ?_, ?_, ?_, ?_⟩
  · by_contra shown
    have cell := before.2.1.1 ((before.2.2.2 10 (by decide)).1 shown)
    revert cell
    decide
  · exact (reached.2.2.2 10 (by decide)).2 (reached.2.1.2 (by decide))
  · exact (turned.2.2.2 10 (by decide)).2 (turned.2.1.2 (by decide))
  · by_contra shown
    have cell := lost.2.1.1 ((lost.2.2.2 10 (by decide)).1 shown)
    revert cell
    decide

/-- The view of memory need not show memory: with one cell, and a program that begins at address 1,
it begins past the end, and the panel has no line. -/
theorem memoryPanel_late_segment :
    let d := (ofImage (.ofWords 1 [0]) { memorySize := 1 }).after [.tick]
    (1 : UInt64) ≤ 1 ∧ ¬ d.scroll.toNat < d.machine.memory.size ∧
      (d.memoryPanel 10).lines = [] := by
  decide +kernel

end Debugger

end DirectionCentral
