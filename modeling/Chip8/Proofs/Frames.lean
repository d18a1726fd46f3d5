import Chip8.Proofs.Keyboard

/-!
# Frames

A display keeps one array of colours for as long as it is open. Each drawing paints the picture of
the machine into it and hands it to the window, which takes it or rejects it. As a picture has a
pixel for each cell of the array, a drawing leaves nothing of what was there before, and the frame
is a function of the picture alone.

Painting goes through the cells and the pixels side by side, row by row, and ends with the shorter
of the two. So it is a matter of counting which cell shows which pixel.

## Main statements

* `Grid.pixels_eq`: the pixels of a picture, row by row, are its cells in order.
* `Grid.toList_paint`: painting goes through cells and pixels side by side.
* `Grid.getElem?_paint`, `Grid.getElem?_paint_of_ge`: which cell shows which pixel.
* `Cabinet.console_afterAll`: a run without its drawings.
* `Cabinet.shown_is_lit`: what the window is handed in a run.
-/

namespace Chip8

/-! ### Painting -/

namespace Grid

variable {g : Grid} {cells : Array Colour} {x y i : Nat}

/-- The pixels of a picture, row by row from the top left. -/
def pixels (g : Grid) : List Bool :=
  (List.range gridHeight).flatMap fun y => (List.range gridWidth).map fun x => g.pixel x y

/-- Rows of the same length, one behind the other, are counted through. -/
theorem flatMap_range_map {α : Type} (height width : Nat) (f : Nat → α) :
    ((List.range height).flatMap fun y => (List.range width).map fun x => f (width * y + x)) =
      (List.range (width * height)).map f := by
  induction height with
  | zero => rfl
  | succ height ih =>
    rw [List.range_succ, List.flatMap_append, ih, List.flatMap_singleton, Nat.mul_succ,
      List.range_add, List.map_append, List.map_map]
    rfl

/-- In row `y` stand the cells from `64 * y` on. -/
theorem cell_of_lt (g : Grid) (hx : x < gridWidth) (y : Nat) :
    g.cell (gridWidth * y + x) = g.pixel x y := by
  rw [cell, Nat.mul_add_mod, Nat.mod_eq_of_lt hx, Nat.mul_add_div (by decide),
    Nat.div_eq_of_lt hx, Nat.add_zero]

/-- There is a cell for each pixel. -/
theorem index_lt (hx : x < gridWidth) (hy : y < gridHeight) : gridWidth * y + x < pixelCount := by
  simp only [pixelCount, gridWidth, gridHeight] at hx hy ⊢
  omega

/-- Row by row, the pixels are counted through. -/
theorem pixels_eq (g : Grid) : g.pixels = (List.range pixelCount).map g.cell := by
  rw [pixelCount, ← flatMap_range_map, pixels]
  refine List.flatMap_congr fun y _ => List.map_congr_left fun x hx => ?_
  exact (g.cell_of_lt (List.mem_range.1 hx) y).symm

/-- There are 2048 of them. -/
theorem length_pixels (g : Grid) : g.pixels.length = pixelCount := by
  rw [pixels_eq, List.length_map, List.length_range]

/-- A buffer that is painted is as long as before. -/
@[simp] theorem size_paint (g : Grid) (cells : Array Colour) :
    (g.paint cells).size = cells.size :=
  Array.size_mapIdx

/-- A cell of the buffer shows a pixel as long as there are pixels, and else what it has shown. -/
theorem getElem?_paint_cell (g : Grid) (cells : Array Colour) (i : Nat) :
    (g.paint cells)[i]? =
      cells[i]?.map fun old => if i < pixelCount then g.colour i else old :=
  Array.getElem?_mapIdx

/-- To write the first items of a list by their number is to go through list and new items side by
side. -/
theorem mapIdx_eq_zipWith {α : Type} (l : List α) (n : Nat) (new : Nat → α) :
    (l.mapIdx fun i old => if i < n then new i else old) =
      List.zipWith (fun _ a => a) l ((List.range n).map new) ++ l.drop n := by
  induction l generalizing n new with
  | nil => simp
  | cons a l ih =>
    rw [List.mapIdx_cons]
    cases n with
    | zero =>
      have hkept := ih 0 fun i => new (i + 1)
      simp only [Nat.not_lt_zero, if_false, List.range_zero, List.map_nil, List.zipWith_nil_right,
        List.nil_append, List.drop_zero] at hkept ⊢
      rw [hkept]
    | succ n =>
      have hrest := ih n fun i => new (i + 1)
      simp only [Nat.add_lt_add_iff_right, Nat.succ_pos, if_true]
      rw [hrest, List.range_succ_eq_map, List.map_cons, List.map_map]
      rfl

/-- Painting goes through cells and pixels side by side, and leaves the cells that are left. -/
theorem toList_paint (g : Grid) (cells : Array Colour) :
    (g.paint cells).toList =
      List.zipWith (fun _ lit => Colour.ofPixel lit) cells.toList g.pixels ++
        cells.toList.drop g.pixels.length := by
  rw [paint, Array.toList_mapIdx, mapIdx_eq_zipWith, length_pixels, pixels_eq,
    List.zipWith_map_right, List.zipWith_map_right]
  rfl

/-- The cell of a pixel shows its colour. -/
theorem getElem?_paint (g : Grid) (hx : x < gridWidth) (hy : y < gridHeight)
    (hcell : gridWidth * y + x < cells.size) :
    (g.paint cells)[gridWidth * y + x]? = some (.ofPixel (g.pixel x y)) := by
  rw [getElem?_paint_cell, Array.getElem?_eq_getElem hcell, Option.map_some,
    if_pos (index_lt hx hy), colour, cell_of_lt g hx]

/-- Behind the last pixel nothing is painted. -/
theorem getElem?_paint_of_ge (g : Grid) (cells : Array Colour) (hi : pixelCount ≤ i) :
    (g.paint cells)[i]? = cells[i]? := by
  rw [getElem?_paint_cell]
  simp only [if_neg (Nat.not_lt_of_le hi)]
  exact Option.map_id' ..

/-! ### Frames -/

/-- The frame that shows a picture. -/
def frame (g : Grid) : Frame where
  pixels := (g.pixels.map Colour.ofPixel).toArray
  width := gridWidth
  height := gridHeight

/-- A frame has a cell for each pixel. -/
theorem size_frame (g : Grid) : g.frame.pixels.size = pixelCount := by
  rw [frame, List.size_toArray, List.length_map, length_pixels]

/-- If there are as many cells as pixels, nothing is left of what was there before. -/
theorem paint_of_size (g : Grid) (h : cells.size = pixelCount) :
    g.paint cells = g.frame.pixels := by
  have hsize : (g.paint cells).size = pixelCount := (g.size_paint cells).trans h
  refine Array.ext (hsize.trans g.size_frame.symm) fun i hi _ => ?_
  have hpixel : i < pixelCount := hi.trans_eq hsize
  simp only [paint, Array.getElem_mapIdx, if_pos hpixel, frame, pixels_eq, colour]
  simp

/-- A pixel can be read off the frame. -/
theorem pixel_eq_true_iff (g : Grid) (hx : x < gridWidth) (hy : y < gridHeight) :
    g.pixel x y = true ↔ g.frame.pixels[gridWidth * y + x]? = some .on := by
  have hsize : (Array.replicate pixelCount Colour.off).size = pixelCount := Array.size_replicate
  rw [← g.paint_of_size hsize, g.getElem?_paint hx hy ((index_lt hx hy).trans_eq hsize.symm),
    Option.some.injEq, Colour.ofPixel]
  cases g.pixel x y <;> decide

end Grid

/-! ### Displays -/

namespace Display

variable {W : Type} {d : Display W}

/-- A drawing paints the display, whether or not the window takes it. -/
theorem fst_draw (d : Display W) (g : Grid) (answer : Except String Unit) :
    (d.draw g answer).1 = d.paint g := by
  cases answer <;> rfl

/-- A display that has been opened has a cell for each pixel. -/
theorem size_of_open? {answer : Except String W} (h : open? answer = .ok d) :
    d.pixels.size = pixelCount := by
  cases answer with
  | ok window =>
    obtain rfl := Except.ok.inj h
    exact Array.size_replicate
  | error cause => cases h

/-- If there is a cell for each pixel, painting a picture makes the frame of the picture. -/
theorem frame_paint (g : Grid) (h : d.pixels.size = pixelCount) :
    (d.paint g).frame = g.frame := by
  rw [frame, paint, Grid.paint_of_size _ h]
  rfl

end Display

/-! ### A display and a machine -/

/-- What happens at a display and the machine that it shows. -/
inductive CabinetEvent where
  /-- Something that is no drawing. -/
  | host (e : HostEvent)
  /-- The picture is drawn, and the window takes the frame or rejects it, for a cause. What it
  learns of the keyboard on that occasion is an update of its own. -/
  | draw (answer : Except String Unit)

/-- A display and the machine that it shows. -/
structure Cabinet (W : Type) where
  display : Display W
  machine : Machine

namespace Cabinet

variable {W : Type} [HostWindow W] {c : Cabinet W} {e : CabinetEvent} {events : List CabinetEvent}

/-- The window of the display, with the machine. -/
def console (c : Cabinet W) : Console W :=
  ⟨c.display.window, c.machine⟩

/-- The display and the machine after an event. -/
def after (c : Cabinet W) : CabinetEvent → Cabinet W
  | .host e =>
    { display := { c.display with window := (c.console.after e).window }
      machine := (c.console.after e).machine }
  | .draw answer => { c with display := (c.display.draw c.machine.grid answer).1 }

/-- The display and the machine after some events, in order. -/
def afterAll (c : Cabinet W) (events : List CabinetEvent) : Cabinet W :=
  events.foldl after c

/-- What a drawing hands to the window, whether or not the window takes it. -/
def handed (c : Cabinet W) (answer : Except String Unit) : Frame :=
  (c.display.draw c.machine.grid answer).1.frame

/-- What is no drawing among some events. -/
def hostEvents (events : List CabinetEvent) : List HostEvent :=
  events.filterMap fun
    | .host e => some e
    | .draw _ => none

/-- The display has as many cells as a picture has pixels. -/
theorem size_after (h : c.display.pixels.size = pixelCount) (e : CabinetEvent) :
    (c.after e).display.pixels.size = pixelCount := by
  cases e with
  | host e => exact h
  | draw answer =>
    rw [after, Display.fst_draw]
    exact (Grid.size_paint _ _).trans h

/-- Whatever happens, the display has as many cells as a picture has pixels. -/
theorem size_afterAll (h : c.display.pixels.size = pixelCount) (events : List CabinetEvent) :
    (c.afterAll events).display.pixels.size = pixelCount := by
  induction events generalizing c with
  | nil => exact h
  | cons e events ih => exact ih (size_after h e)

/-- The window and the machine do not see a drawing. -/
theorem console_draw (c : Cabinet W) (answer : Except String Unit) :
    (c.after (.draw answer)).console = c.console := by
  rw [after, Display.fst_draw]
  rfl

/-- A run without its drawings is the same run for the window and the machine. -/
theorem console_afterAll (c : Cabinet W) (events : List CabinetEvent) :
    (c.afterAll events).console = c.console.afterAll (hostEvents events) := by
  induction events generalizing c with
  | nil => rfl
  | cons e events ih =>
    cases e with
    | host e => exact ih _
    | draw answer => exact (ih _).trans (congrArg (Console.afterAll · _) (c.console_draw answer))

/-- What is shown is what is lit.

Painting a picture into an array of any length goes through the cells and the pixels, row by row,
side by side. The cell of each pixel shows whether the pixel is on, as far as there are cells, and
the cells behind the last pixel stay. On and off are two colours, so that the picture can be read
off a frame.

Once a display is open, and whatever has happened since, with drawings that the window took and
drawings that it rejected, a drawing hands the window the frame of the picture that the machine has
at that moment. To the window and the machine it makes no difference whether anything is drawn. -/
theorem shown_is_lit :
    (∀ (g : Grid) (cells : Array Colour),
      (g.paint cells).toList =
        List.zipWith (fun _ lit => Colour.ofPixel lit) cells.toList g.pixels ++
          cells.toList.drop g.pixels.length ∧
      (∀ x y, x < 64 → y < 32 → 64 * y + x < cells.size →
        (g.paint cells)[64 * y + x]? = some (if g.pixel x y then .on else .off)) ∧
      (g.paint cells).size = cells.size ∧
      ∀ i, 2048 ≤ i → (g.paint cells)[i]? = cells[i]?) ∧
    Colour.on ≠ Colour.off ∧
    (∀ g : Grid, g.frame.pixels.size = 2048 ∧ g.frame.width = 64 ∧ g.frame.height = 32 ∧
      ∀ x y, x < 64 → y < 32 →
        (g.pixel x y = true ↔ g.frame.pixels[64 * y + x]? = some .on)) ∧
    ∀ (opening : Except String W) (d : Display W), Display.open? opening = .ok d →
      ∀ (m : Machine) (events : List CabinetEvent),
        let c := (Cabinet.mk d m).afterAll events
        (∀ answer, c.handed answer = c.machine.grid.frame ∧
          (c.after (.draw answer)).console = c.console) ∧
        (c.display.draw c.machine.grid (.ok ())).2 = .ok c.machine.grid.frame ∧
        (∀ cause, (c.display.draw c.machine.grid (.error cause)).2 =
          .error (.updatingWindow cause)) ∧
        c.console = (Cabinet.mk d m).console.afterAll (hostEvents events) := by
  refine ⟨fun g cells => ⟨g.toList_paint cells, fun x y hx hy => g.getElem?_paint hx hy,
    g.size_paint cells, fun i => g.getElem?_paint_of_ge cells⟩, by decide,
    fun g => ⟨g.size_frame, rfl, rfl, fun x y => g.pixel_eq_true_iff⟩, ?_⟩
  intro opening d hopen m events c
  have hcells : c.display.pixels.size = pixelCount :=
    size_afterAll (Display.size_of_open? hopen) events
  refine ⟨fun answer => ⟨?_, c.console_draw answer⟩, ?_, fun cause => rfl,
    console_afterAll _ events⟩
  · rw [handed, Display.fst_draw, Display.frame_paint _ hcells]
  · exact congrArg Except.ok (Display.frame_paint _ hcells)

/-- A machine with one pixel on, on a display whose window has rejected a drawing of it. When the
pixel is off, the next drawing shows a blank picture. -/
theorem shown_is_lit_onePixel :
    let g := Grid.blank.draw 0 0 [0x80]
    let c := (Cabinet.mk (.dark (HostWindow.fresh : Window))
      { Machine.withoutProgram with grid := g }).afterAll
        [.draw (.error "Failed to Update"), .host (.act (.execute .clearScreen))]
    (g.paint (Array.replicate 2050 7))[0]? = some .on ∧
      (g.paint (Array.replicate 2050 7))[2049]? = some 7 ∧
      c.handed (.ok ()) = Grid.blank.frame := by
  intro g c
  obtain ⟨hpaint, -, -, hrun⟩ := shown_is_lit (W := Window)
  obtain ⟨-, hcells, -, hbehind⟩ := hpaint g (Array.replicate 2050 7)
  obtain ⟨hdrawn, -⟩ := hrun (.ok HostWindow.fresh) _ rfl
    { Machine.withoutProgram with grid := g }
    [.draw (.error "Failed to Update"), .host (.act (.execute .clearScreen))]
  have hlit : g.pixel 0 0 = true := by decide +kernel
  refine ⟨(hcells 0 0 (by decide) (by decide) ?_).trans (by rw [hlit]; rfl), ?_,
    (hdrawn (.ok ())).1⟩
  · rw [Array.size_replicate]
    decide
  · rw [hbehind 2049 (by decide)]
    simp

end Cabinet

end Chip8
