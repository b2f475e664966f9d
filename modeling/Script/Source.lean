/-!
# Places in a source text

A `Position` is the line and column that tokens, trees and messages carry. Reading a text counts
both from one in characters; tokens and trees made by hand may carry any. A `Place` also has the
offset from the start of the text. A `Reader` is a source text with the place up to which it has
been read. A reader may be set up at a negative offset: it then reads the end of the text first
and goes on from its start.

An offset into a sequence counts from its start, and a negative one counts back from its end: `-1`
is the last element. `Offset.index?` turns an offset into an index.

* `index?_natCast`, `index?_neg`: what an offset of either sign stands for;
* `index?_lt`: an index found lies in the sequence.
-/

namespace Script

/-! ## Offsets that may count from the end -/

namespace Offset

/-- The index that an offset stands for in a sequence of some length, if there is one. -/
def index? (offset : Int) (length : Nat) : Option Nat :=
  let index := if offset < 0 then offset + length else offset
  if 0 ≤ index ∧ index < length then some index.toNat else none

/-- An offset from the start is its own index. -/
theorem index?_natCast {index length : Nat} (inside : index < length) :
    index? index length = some index := by
  have start : ¬ (index : Int) < 0 := by omega
  have bounds : (0 : Int) ≤ index ∧ (index : Int) < length := by omega
  simp [index?, start, bounds]

/-- A negative offset counts back from the end. -/
theorem index?_neg {back length : Nat} (positive : 0 < back) (inside : back ≤ length) :
    index? (-back) length = some (length - back) := by
  have negative : -(back : Int) < 0 := by omega
  have bounds : 0 ≤ -(back : Int) + length ∧ -(back : Int) + length < length := by omega
  simp only [index?, negative, if_true, bounds, and_self, Option.some.injEq]
  omega

theorem index?_lt {offset : Int} {length index : Nat}
    (found : index? offset length = some index) : index < length := by
  simp only [index?] at found
  generalize (if offset < 0 then offset + (length : Int) else offset) = place at found
  split at found
  · rename_i bounds
    cases found
    omega
  · cases found

end Offset

/-! ## Positions and places -/

/-- A line and a column. -/
structure Position where
  line : Int
  column : Int
deriving DecidableEq, Repr, Inhabited

/-- A position with its offset in the text. -/
structure Place extends Position where
  offset : Int
deriving DecidableEq, Repr, Inhabited

namespace Place

/-- The start of a text. -/
def start : Place := ⟨⟨1, 1⟩, 0⟩

/-- The place behind a character. -/
def next (place : Place) (c : Char) : Place :=
  if c = '\n' then ⟨⟨place.line + 1, 1⟩, place.offset + 1⟩
  else ⟨⟨place.line, place.column + 1⟩, place.offset + 1⟩

/-- The place behind a stretch of text. -/
def after (place : Place) (text : List Char) : Place := text.foldl next place

theorem after_append (place : Place) (first second : List Char) :
    place.after (first ++ second) = (place.after first).after second := List.foldl_append

@[simp]
theorem next_offset (place : Place) (c : Char) : (place.next c).offset = place.offset + 1 := by
  unfold next
  split <;> rfl

/-- The offset counts characters. -/
theorem after_offset (place : Place) (text : List Char) :
    (place.after text).offset = place.offset + text.length := by
  induction text generalizing place with
  | nil => simp [after]
  | cons c rest ih =>
    show ((place.next c).after rest).offset = _
    rw [ih, next_offset, List.length_cons]
    omega

end Place

/-- Why no character can be read at a place. -/
inductive ReadFault where
  /-- The text ends there or before. -/
  | pastEnd (place : Place)
  /-- A negative offset reaches back beyond the start of the text. -/
  | beforeStart
deriving DecidableEq, Repr

/-- What is said about an attempt to read. -/
def ReadFault.message : ReadFault → String
  | pastEnd place =>
    s!"Attempted to read past end of source at position=<{place.offset}>, " ++
      s!"line=<{place.line}>"
  | beforeStart => "string index out of range"

/-- A source text and the place up to which it has been read. -/
structure Reader where
  source : List Char
  place : Place := .start
deriving DecidableEq, Repr

namespace Reader

/-- A reader at the start of a text. -/
def ofString (source : String) : Reader := { source := source.toList }

/-- The text from the place on. -/
def rest (reader : Reader) : List Char := reader.source.drop reader.place.offset.toNat

/-- Whether nothing is left to read. -/
def atEnd (reader : Reader) : Bool := decide (reader.source.length ≤ reader.place.offset)

/-- The character at a distance from the place, in either direction. -/
def peek? (reader : Reader) (distance : Int) : Option Char :=
  let index := reader.place.offset + distance
  if index < 0 then none else reader.source[index.toNat]?

/-- The character that stands at the place. -/
def upcoming? (reader : Reader) : Option Char :=
  (Offset.index? reader.place.offset reader.source.length).bind (reader.source[·]?)

/-- Reads one character. -/
def next (reader : Reader) : Except ReadFault (Char × Reader) :=
  if reader.atEnd then .error (.pastEnd reader.place)
  else
    match reader.upcoming? with
    | some c => .ok (c, { reader with place := reader.place.next c })
    | none => .error .beforeStart

end Reader

end Script
