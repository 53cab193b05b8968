import FastoNoSQL.Bytes.Text
import Mathlib.Data.List.GetD

set_option autoImplicit false

/-!
# The hex view

`paintEvent` of `gui/editor/fasto_hex_edit.cpp` in hex mode. What is kept of a
painted line are the texts that are drawn, not the pixels that they are cut to.
-/

namespace FastoNoSQL.HexEdit

open Bytes

/-- `QRect`, by its edges. -/
structure Rect where
  left : Int
  top : Int
  right : Int
  bottom : Int

/-- The metrics of a font: lines have a height, and characters no negative width. -/
structure FontMetrics where
  averageCharWidth : Nat
  height : Nat
  positive : 0 < height

-- `QRect` of a size at the origin.
def Rect.ofSize (width height : Nat) : Rect := ⟨0, 0, width - 1, height - 1⟩

def textMarginXY : Int := 4

def stableRect (rect : Rect) : Rect :=
  ⟨rect.left + textMarginXY, rect.top + textMarginXY, rect.right - textMarginXY, rect.bottom - textMarginXY⟩

def FontMetrics.charWidth (font : FontMetrics) : Int := font.averageCharWidth + 1

def asciiCharInLine (font : FontMetrics) (wid : Int) : Int := (wid.tdiv 4).tdiv font.charWidth

-- `widchars` of `fullSize` and `paintEvent`.
def widchars (rect : Rect) : Int := (stableRect rect).right - (stableRect rect).left - textMarginXY * 2

-- The characters of a line in a rectangle.
def charsPerLine (font : FontMetrics) (rect : Rect) : Int := asciiCharInLine font (widchars rect)

/-- The size of the whole text; none for a division by zero. -/
def fullSize (font : FontMetrics) (viewport : Rect) (size : Nat) : Option (Int × Int) :=
  let xPosAscii := (widchars viewport).tdiv 4 * 3
  let acharInLine := charsPerLine font viewport
  if acharInLine = 0 then none
  else
    let height := (size : Int).tdiv acharInLine + if (size : Int).tmod acharInLine ≠ 0 then 1 else 0
    some (xPosAscii + acharInLine * font.charWidth, height * font.height)

/-! ## One line -/

def hexDigit (n : Nat) : UInt8 := .ofNat (if n < 10 then 0x30 + n else 0x61 + (n - 10))

def hexCode (b : UInt8) : Text := [hexDigit (b.toNat / 16), hexDigit (b.toNat % 16)]

-- `QByteArray::toHex`
def toHex (bytes : Text) : Text := bytes.flatMap hexCode

def mid (text : Text) (pos len : Nat) : Text := (text.drop pos).take len

-- `char` may have a sign or none: either way these are the bytes outside of 0x20 .. 0x7e.
def isHidden (ch : UInt8) : Bool := ch < 0x20 || ch > 0x7e

def dot (ch : UInt8) : UInt8 := if isHidden ch then byte '.' else ch

-- Behind the end a `QByteRef` reads as 0, and an assignment extends the array.
def assign (part : Text) (i : Nat) (ch : UInt8) : Text :=
  if i < part.length then part.set i ch else part ++ List.replicate (i - part.length) 0 ++ [ch]

def hide (part : Text) (i : Nat) : Text :=
  if isHidden (part.getD i 0) then assign part i (byte '.') else part

/-- The texts that are drawn for a line: one for each cell of the hex column, and that of the text column. -/
structure Line where
  lineIdx : Nat
  hex : List Text
  text : Text

-- The loop runs over the hex text and hides the byte of the same index.
def drawLine (lineIdx : Nat) (part : Text) : Line where
  lineIdx
  hex := (List.range (toHex part).length).map fun i => mid (toHex part) (i * 2) 2
  text := (List.range (toHex part).length).foldl hide part

-- `resize` leaves the bytes that it adds as they are in memory.
def resize (memory : Nat → UInt8) (part : Text) (size : Nat) : Text :=
  part.take size ++ (List.range (size - part.length)).map memory

def partSize (acharInLine size : Nat) : Nat := if size / acharInLine ≠ 0 then acharInLine else size % acharInLine

section Paint

variable (memory : Nat → Nat → UInt8) (data : Text) (acharInLine : Nat)

/-- The pointer into the data is read as a C string; the data end with a zero byte. -/
def paintLine (lineIdx size : Nat) : Option Line :=
  if lineIdx * acharInLine ≤ data.length then
    some (drawLine lineIdx
      (resize (memory lineIdx) (cString (data.drop (lineIdx * acharInLine))) (partSize acharInLine size)))
  else none

-- The loop over the lines, with the number of lines that are left.
def paintLines : Nat → Nat → Nat → Option (List Line)
  | 0, _, _ => some []
  | count + 1, lineIdx, size => do
    let line ← paintLine memory data acharInLine lineIdx size
    let lines ← paintLines count (lineIdx + 1) (size - partSize acharInLine size)
    return line :: lines

end Paint

/-- The page step and the maximum of the scroll bar, when they are set, and the lines. -/
structure Painting where
  scrollBar : Option (Int × Int) := none
  lines : List Line := []

def lastLine (font : FontMetrics) (areaHeight size acharInLine first : Nat) : Nat :=
  let lastLineIdx := first + areaHeight / font.height
  if lastLineIdx > size / acharInLine then size / acharInLine + if size % acharInLine ≠ 0 then 1 else 0
  else lastLineIdx

-- `first` is the value of the scroll bar.
def paintEvent (memory : Nat → Nat → UInt8) (font : FontMetrics) (data : Text) (areaWidth areaHeight : Nat)
    (eventRect : Rect) (first : Nat) : Option Painting := do
  let widgetSize ← fullSize font (Rect.ofSize areaWidth areaHeight) data.length
  let acharInLine := charsPerLine font eventRect
  if acharInLine ≤ 0 then
    return {}
  else
    let last := lastLine font areaHeight data.length acharInLine.toNat first
    let lines ← paintLines memory data acharInLine.toNat (last - first) first data.length
    return {
      scrollBar := some (areaHeight / font.height, (widgetSize.2 - areaHeight).tdiv font.height + 1)
      lines }

/-! ## What a line shows -/

-- The bytes of line `k`.
def lineBytes (data : Text) (acharInLine k : Nat) : Text := (data.drop (k * acharInLine)).take acharInLine

/-- The codes of the bytes in the first cells and nothing in the others, and the bytes with dots. -/
structure ShowsBytes (line : Line) (bytes : Text) : Prop where
  hex : ∀ i, line.hex.getD i [] = (bytes.map hexCode).getD i []
  text : line.text = bytes.map dot

theorem length_toHex (bytes : Text) : (toHex bytes).length = 2 * bytes.length := by
  induction bytes with
  | nil => rfl
  | cons b bytes ih =>
      have shape : toHex (b :: bytes) = hexCode b ++ toHex bytes := rfl
      have two : (hexCode b).length = 2 := rfl
      rw [shape, List.length_append, ih, two, List.length_cons]
      omega

theorem mid_toHex (bytes : Text) (i : Nat) : mid (toHex bytes) (i * 2) 2 = (bytes.map hexCode).getD i [] := by
  induction bytes generalizing i with
  | nil => simp [mid, toHex]
  | cons b bytes ih =>
      cases i with
      | zero => rfl
      | succ i =>
          have pos : (i + 1) * 2 = i * 2 + 1 + 1 := by omega
          rw [pos]
          exact ih i

theorem hide_append (before : Text) (ch : UInt8) (after : Text) :
    hide (before ++ ch :: after) before.length = before ++ dot ch :: after := by
  have found : (before ++ ch :: after).getD before.length 0 = ch := by simp
  rw [hide, found, dot]
  split
  next => simp [assign]
  next => rfl

theorem hide_length (part : Text) : hide part part.length = part ++ [byte '.'] := by
  have zero : isHidden (part.getD part.length 0) = true := by simp [isHidden]
  rw [hide, if_pos zero, assign, if_neg (Nat.lt_irrefl _), Nat.sub_self]
  simp

theorem foldl_hide_within (part : Text) (i : Nat) (within : i ≤ part.length) :
    (List.range i).foldl hide part = (part.take i).map dot ++ part.drop i := by
  induction i with
  | zero => rfl
  | succ i ih =>
      have length : ((part.take i).map dot).length = i := by
        rw [List.length_map, List.length_take]
        omega
      have next := hide_append ((part.take i).map dot) part[i] (part.drop (i + 1))
      rw [length, ← List.drop_eq_getElem_cons within] at next
      rw [List.range_succ, List.foldl_append, ih (by omega), List.foldl_cons, List.foldl_nil, next,
        List.take_succ_eq_append_getElem within, List.map_append, List.append_assoc]
      rfl

-- Behind the last byte each round of the loop adds a dot.
theorem foldl_hide_beyond (part : Text) (n : Nat) :
    (List.range (part.length + n)).foldl hide part = part.map dot ++ List.replicate n (byte '.') := by
  induction n with
  | zero =>
      rw [Nat.add_zero, foldl_hide_within part _ (Nat.le_refl _), List.take_length, List.drop_length]
      rfl
  | succ n ih =>
      have length : (part.map dot ++ List.replicate n (byte '.')).length = part.length + n := by simp
      rw [← Nat.add_assoc, List.range_succ, List.foldl_append, ih, List.foldl_cons, List.foldl_nil, ← length,
        hide_length, List.append_assoc, ← List.replicate_succ']

theorem drawLine_text (lineIdx : Nat) (part : Text) :
    (drawLine lineIdx part).text = part.map dot ++ List.replicate part.length (byte '.') := by
  have rounds : 2 * part.length = part.length + part.length := by omega
  rw [drawLine, length_toHex, rounds, foldl_hide_beyond]

theorem drawLine_hex (lineIdx : Nat) (part : Text) (i : Nat) :
    (drawLine lineIdx part).hex.getD i [] = (part.map hexCode).getD i [] := by
  rw [← mid_toHex, drawLine, length_toHex, List.getD_eq_getElem?_getD, List.getElem?_map]
  by_cases within : i < 2 * part.length
  · rw [List.getElem?_range within]
    rfl
  · have outside : (toHex part).length ≤ i * 2 := by
      rw [length_toHex]
      omega
    rw [List.getElem?_eq_none (by rw [List.length_range]; omega), mid, List.drop_eq_nil_of_le outside]
    rfl

theorem length_resize (memory : Nat → UInt8) (part : Text) (size : Nat) : (resize memory part size).length = size := by
  rw [resize, List.length_append, List.length_take, List.length_map, List.length_range]
  omega

theorem partSize_eq (acharInLine size : Nat) (positive : 0 < acharInLine) :
    partSize acharInLine size = min acharInLine size := by
  rw [partSize]
  split
  next whole =>
    have enough : acharInLine ≤ size := by
      by_contra short
      exact whole (Nat.div_eq_of_lt (Nat.lt_of_not_le short))
    exact (Nat.min_eq_left enough).symm
  next part =>
    have short : size < acharInLine := by
      by_contra enough
      exact part (Nat.ne_of_gt (Nat.div_pos (Nat.le_of_not_lt enough) positive))
    rw [Nat.mod_eq_of_lt short, Nat.min_eq_right (Nat.le_of_lt short)]

/-! ## The lines of a painting -/

section Paint

variable (memory : Nat → Nat → UInt8) (data : Text) (acharInLine : Nat)

theorem paintLine_eq (lineIdx size : Nat) (within : lineIdx * acharInLine ≤ data.length) :
    ∃ part, paintLine memory data acharInLine lineIdx size = some (drawLine lineIdx part) ∧
      part = resize (memory lineIdx) (cString (data.drop (lineIdx * acharInLine))) (partSize acharInLine size) := by
  rw [paintLine, if_pos within]
  exact ⟨_, rfl, rfl⟩

-- A line shows the bytes that are left from the front as a number, but twice as many characters.
theorem not_showsBytes (positive : 0 < acharInLine) (lineIdx size : Nat) (line : Line)
    (painted : paintLine memory data acharInLine lineIdx size = some line) (some : 0 < size)
    (left : data.length ≤ lineIdx * acharInLine + size) :
    ¬ ShowsBytes line (lineBytes data acharInLine lineIdx) := by
  intro shows
  rw [paintLine] at painted
  split at painted
  next =>
    cases painted
    have text := congrArg List.length shows.text
    rw [drawLine_text, List.length_append, List.length_map, List.length_replicate, length_resize,
      partSize_eq acharInLine size positive, List.length_map, lineBytes, List.length_take, List.length_drop] at text
    omega
  next => cases painted

theorem paintLines_isSome (count lineIdx size : Nat)
    (within : ∀ k, lineIdx ≤ k → k < lineIdx + count → k * acharInLine ≤ data.length) :
    ∃ lines, paintLines memory data acharInLine count lineIdx size = some lines := by
  induction count generalizing lineIdx size with
  | zero => exact ⟨[], rfl⟩
  | succ count ih =>
      obtain ⟨part, first, _⟩ := paintLine_eq memory data acharInLine lineIdx size (within lineIdx (Nat.le_refl _)
        (by omega))
      obtain ⟨lines, rest⟩ := ih (lineIdx + 1) (size - partSize acharInLine size) fun k low high =>
        within k (by omega) (by omega)
      exact ⟨_, by rw [paintLines, first, Option.bind_eq_bind, Option.bind_some, rest]; rfl⟩

-- Without zero bytes, a line whose size is that of the data behind its start has the right bytes.
theorem part_eq (positive : 0 < acharInLine) (clean : (0 : UInt8) ∉ data) (lineIdx : Nat) :
    resize (memory lineIdx) (cString (data.drop (lineIdx * acharInLine)))
        (partSize acharInLine (data.length - lineIdx * acharInLine)) = lineBytes data acharInLine lineIdx := by
  have whole : cString (data.drop (lineIdx * acharInLine)) = data.drop (lineIdx * acharInLine) :=
    cString_eq_self _ fun zero => clean (List.mem_of_mem_drop zero)
  have enough : min acharInLine (data.length - lineIdx * acharInLine) - (data.length - lineIdx * acharInLine) = 0 := by
    omega
  rw [whole, partSize_eq acharInLine _ positive, resize, List.length_drop, enough, lineBytes,
    ← List.length_drop, ← List.take_eq_take_min]
  simp

/-- From the top, without zero bytes, the hex column is right, and the text column is followed by as many dots. -/
theorem showsHex_of_clean (positive : 0 < acharInLine) (clean : (0 : UInt8) ∉ data) (count lineIdx : Nat)
    (lines : List Line)
    (painted : paintLines memory data acharInLine count lineIdx (data.length - lineIdx * acharInLine) = some lines)
    (line : Line) (member : line ∈ lines) :
    (∀ i, line.hex.getD i [] = ((lineBytes data acharInLine line.lineIdx).map hexCode).getD i []) ∧
      line.text = (lineBytes data acharInLine line.lineIdx).map dot ++
        List.replicate (lineBytes data acharInLine line.lineIdx).length (byte '.') := by
  induction count generalizing lineIdx lines with
  | zero =>
      cases painted
      cases member
  | succ count ih =>
      rw [paintLines] at painted
      obtain ⟨first, drawn, rest⟩ := Option.bind_eq_some_iff.mp painted
      obtain ⟨others, after, whole⟩ := Option.bind_eq_some_iff.mp rest
      have next : data.length - lineIdx * acharInLine - partSize acharInLine (data.length - lineIdx * acharInLine) =
          data.length - (lineIdx + 1) * acharInLine := by
        rw [partSize_eq acharInLine _ positive, Nat.succ_mul]
        omega
      rw [next] at after
      rw [← Option.some.inj whole] at member
      rcases List.mem_cons.mp member with rfl | later
      · rw [paintLine] at drawn
        split at drawn
        next =>
          rw [part_eq memory data acharInLine positive clean] at drawn
          rw [← Option.some.inj drawn]
          exact ⟨drawLine_hex lineIdx _, drawLine_text lineIdx _⟩
        next => cases drawn
      · exact ih (lineIdx + 1) others after later

end Paint

-- The lines that the data take.
theorem lt_lines_iff (size acharInLine k : Nat) (positive : 0 < acharInLine) :
    k < size / acharInLine + (if size % acharInLine ≠ 0 then 1 else 0) ↔ k * acharInLine < size := by
  have whole : size / acharInLine * acharInLine + size % acharInLine = size := Nat.div_add_mod' size acharInLine
  have least : k ≤ size / acharInLine ↔ k * acharInLine ≤ size := Nat.le_div_iff_mul_le positive
  split
  next part =>
    constructor
    · intro before
      have product := Nat.mul_le_mul_right acharInLine (Nat.le_of_lt_succ before)
      omega
    · intro before
      have within := least.mpr (Nat.le_of_lt before)
      omega
  next full =>
    rw [Nat.add_zero]
    constructor
    · intro before
      have product := Nat.mul_lt_mul_of_pos_right before positive
      omega
    · intro before
      by_contra beyond
      have product := Nat.mul_le_mul_right acharInLine (Nat.le_of_not_lt beyond)
      omega

section Lines

variable (font : FontMetrics) (areaHeight size acharInLine first : Nat) (positive : 0 < acharInLine)

include positive

theorem mul_le_of_lt_lastLine (k : Nat) (before : k < lastLine font areaHeight size acharInLine first) :
    k * acharInLine ≤ size := by
  rw [lastLine] at before
  split at before
  next => exact Nat.le_of_lt ((lt_lines_iff size acharInLine k positive).mp before)
  next within =>
    have least : k ≤ size / acharInLine := by omega
    exact (Nat.le_div_iff_mul_le positive).mp least

-- A line is painted when there is height for it, and data.
theorem lt_lastLine_iff :
    first < lastLine font areaHeight size acharInLine first ↔
      font.height ≤ areaHeight ∧ first * acharInLine < size := by
  have room : 0 < areaHeight / font.height ↔ font.height ≤ areaHeight := Nat.div_pos_iff.trans (by
    have height := font.positive
    omega)
  have lines := lt_lines_iff size acharInLine first positive
  rw [← room, lastLine]
  split
  next beyond =>
    rw [lines]
    constructor
    · intro before
      have least : first ≤ size / acharInLine := (Nat.le_div_iff_mul_le positive).mpr (Nat.le_of_lt before)
      exact ⟨by omega, before⟩
    · exact And.right
  next within =>
    constructor
    · intro before
      exact ⟨by omega, lines.mp (by omega)⟩
    · intro met
      omega

end Lines

/-! ## The painting -/

section Painting

variable (memory : Nat → Nat → UInt8) (font : FontMetrics) (data : Text) (areaWidth areaHeight : Nat)
variable (eventRect : Rect) (first : Nat)

/-- Nothing is undefined, and each line shows its bytes. -/
def PaintsData : Prop :=
  ∃ painting, paintEvent memory font data areaWidth areaHeight eventRect first = some painting ∧
    ∀ line ∈ painting.lines,
      ShowsBytes line (lineBytes data (charsPerLine font eventRect).toNat line.lineIdx)

-- No line is painted: none fits the width or the height, or there are no data from the first line on.
def Blank : Prop :=
  charsPerLine font eventRect ≤ 0 ∨ areaHeight < font.height ∨
    data.length ≤ first * (charsPerLine font eventRect).toNat

theorem fullSize_isSome_iff (viewport : Rect) (size : Nat) :
    (∃ full, fullSize font viewport size = some full) ↔ charsPerLine font viewport ≠ 0 := by
  rw [fullSize]
  by_cases zero : charsPerLine font viewport = 0 <;> simp [zero]

-- The only fault is the division by the number of characters in a line of the viewport.
theorem paintEvent_isSome_iff :
    (∃ painting, paintEvent memory font data areaWidth areaHeight eventRect first = some painting) ↔
      charsPerLine font (Rect.ofSize areaWidth areaHeight) ≠ 0 := by
  rw [← fullSize_isSome_iff font _ data.length, paintEvent]
  constructor
  · rintro ⟨painting, painted⟩
    obtain ⟨full, sized, _⟩ := Option.bind_eq_some_iff.mp painted
    exact ⟨full, sized⟩
  · rintro ⟨full, sized⟩
    rw [sized, Option.bind_eq_bind, Option.bind_some]
    simp only []
    split
    next => exact ⟨_, rfl⟩
    next some =>
      have positive : 0 < (charsPerLine font eventRect).toNat := by omega
      obtain ⟨lines, painted⟩ := paintLines_isSome memory data (charsPerLine font eventRect).toNat
        (lastLine font areaHeight data.length (charsPerLine font eventRect).toNat first - first) first data.length
        fun k low high => mul_le_of_lt_lastLine font areaHeight data.length _ first positive k (by omega)
      rw [painted]
      exact ⟨_, rfl⟩

-- The lines that are painted, from the first to the last.
theorem lines_of_paintEvent (painting : Painting)
    (painted : paintEvent memory font data areaWidth areaHeight eventRect first = some painting) :
    if charsPerLine font eventRect ≤ 0 then painting.lines = []
    else
      paintLines memory data (charsPerLine font eventRect).toNat
        (lastLine font areaHeight data.length (charsPerLine font eventRect).toNat first - first) first data.length =
        some painting.lines := by
  rw [paintEvent] at painted
  obtain ⟨_, _, rest⟩ := Option.bind_eq_some_iff.mp painted
  split
  next none =>
    simp only [none, if_true, Option.pure_def, Option.some.injEq] at rest
    rw [← rest]
  next some =>
    simp only [some, if_false] at rest
    obtain ⟨lines, painted, rest⟩ := Option.bind_eq_some_iff.mp rest
    rw [painted]
    simp only [Option.pure_def, Option.some.injEq] at rest
    rw [← rest]

theorem lines_of_blank (painting : Painting)
    (painted : paintEvent memory font data areaWidth areaHeight eventRect first = some painting)
    (blank : Blank font data areaHeight eventRect first) : painting.lines = [] := by
  have lines := lines_of_paintEvent memory font data areaWidth areaHeight eventRect first painting painted
  split at lines
  next => exact lines
  next some =>
    have positive : 0 < (charsPerLine font eventRect).toNat := by omega
    have none : ¬ first < lastLine font areaHeight data.length (charsPerLine font eventRect).toNat first := by
      rw [lt_lastLine_iff font areaHeight data.length _ first positive]
      intro painted
      rcases blank with narrow | low | short <;> omega
    rw [Nat.sub_eq_zero_of_le (Nat.le_of_not_lt none)] at lines
    exact (Option.some.inj lines).symm

-- The first line that is painted already has more text than bytes.
theorem blank_of_showsBytes (painting : Painting)
    (painted : paintEvent memory font data areaWidth areaHeight eventRect first = some painting)
    (shows : ∀ line ∈ painting.lines,
      ShowsBytes line (lineBytes data (charsPerLine font eventRect).toNat line.lineIdx)) :
    Blank font data areaHeight eventRect first := by
  have lines := lines_of_paintEvent memory font data areaWidth areaHeight eventRect first painting painted
  by_contra seen
  simp only [Blank, not_or, Int.not_le, Nat.not_lt, Nat.not_le] at seen
  obtain ⟨wide, high, more⟩ := seen
  have positive : 0 < (charsPerLine font eventRect).toNat := by omega
  rw [if_neg (by omega)] at lines
  have before := (lt_lastLine_iff font areaHeight data.length _ first positive).mpr ⟨high, more⟩
  obtain ⟨count, counted⟩ : ∃ count,
      lastLine font areaHeight data.length (charsPerLine font eventRect).toNat first - first = count + 1 :=
    ⟨lastLine font areaHeight data.length (charsPerLine font eventRect).toNat first - first - 1, by omega⟩
  rw [counted, paintLines] at lines
  obtain ⟨line, drawn, rest⟩ := Option.bind_eq_some_iff.mp lines
  obtain ⟨others, _, whole⟩ := Option.bind_eq_some_iff.mp rest
  have member : line ∈ painting.lines := by
    rw [← Option.some.inj whole]
    exact List.mem_cons_self
  have index : line.lineIdx = first := by
    rw [paintLine] at drawn
    split at drawn
    next => exact (Option.some.inj drawn) ▸ rfl
    next => cases drawn
  have wrong := not_showsBytes memory data _ positive first data.length line drawn (by omega) (by omega)
  rw [← index] at wrong
  exact wrong (shows line member)

/-- The hex view shows the data only where there is nothing to show: for a viewport whose width is not between those of
no characters, when no line is painted. -/
theorem paintsData_iff :
    PaintsData memory font data areaWidth areaHeight eventRect first ↔
      charsPerLine font (Rect.ofSize areaWidth areaHeight) ≠ 0 ∧ Blank font data areaHeight eventRect first := by
  have whole := paintEvent_isSome_iff memory font data areaWidth areaHeight eventRect first
  rw [PaintsData, ← whole]
  constructor
  · rintro ⟨painting, painted, shows⟩
    exact ⟨⟨painting, painted⟩,
      blank_of_showsBytes memory font data areaWidth areaHeight eventRect first painting painted shows⟩
  · rintro ⟨⟨painting, painted⟩, blank⟩
    refine ⟨painting, painted, ?_⟩
    rw [lines_of_blank memory font data areaWidth areaHeight eventRect first painting painted blank]
    simp

end Painting

def smallFont : FontMetrics := ⟨7, 10, by decide⟩

/-- One byte is drawn with a dot behind it, and in a viewport of 20 pixels the size is divided by zero. -/
theorem hex_view_wrong :
    (∃ painting, paintEvent (fun _ _ => 0) smallFont (ascii "A") 100 20 (Rect.ofSize 100 20) 0 = some painting ∧
        painting.lines.map (·.text) = [ascii "A."]) ∧
      ¬ PaintsData (fun _ _ => 0) smallFont (ascii "A") 100 20 (Rect.ofSize 100 20) 0 ∧
      paintEvent (fun _ _ => 0) smallFont (ascii "A") 20 20 (Rect.ofSize 20 20) 0 = none := by
  refine ⟨⟨_, rfl, by decide⟩, ?_, by rfl⟩
  rintro ⟨painting, painted, shows⟩
  have blank := blank_of_showsBytes _ smallFont _ _ _ _ _ painting painted shows
  rw [Blank] at blank
  exact absurd blank (by decide)

end FastoNoSQL.HexEdit
