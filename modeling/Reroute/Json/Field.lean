import Reroute.Json.Reader

/-!
# Reading records from JSON

The rules by which documents fill records.  A member belongs to a field when their
names agree up to the case of letters.  Members are taken in order and each overwrites
what an earlier one stored, except that `null` leaves a text or a number as it is.
A value of the wrong type makes the whole document unreadable.
-/

namespace Reroute.Json

/-- The case-independent form of a name: ASCII letters in upper case, and the two
other characters that fold to ASCII letters replaced by them. -/
def foldName (name : Bytes) : List Char :=
  (Bytes.chars name).map fun character =>
    if character.toNat == 0x17F then 'S'
    else if character.toNat == 0x212A then 'K'
    else if 'a' ≤ character && character ≤ 'z' then Char.ofNat (character.toNat - 32)
    else character

/-- A member's name selects the field. -/
def selects (member : Bytes) (field : String) : Bool :=
  foldName member == foldName (utf8 field)

def fillText (current : Bytes) : Value → Option Bytes
  | .string text => some text
  | .null => some current
  | _ => none

/-- Fill a field that holds a signed 64-bit integer. -/
def fillWord (current : Int) : Value → Option Int
  | .number numeral => Numeral.readWord? numeral
  | .null => some current
  | _ => none

/-- Fill the cells of a list in place: cell `i` starts from what `cells` holds there,
or from `fresh`.  The first part of the result is the list; the second adds the cells
that a shorter list left behind, which a later and longer list starts from. -/
def fillCells {α β : Type} (fresh : α) (fill : α → β → Option α) :
    List α → List β → Option (List α × List α)
  | cells, [] => some ([], cells)
  | cells, item :: items =>
      match fill (cells.headD fresh) item, fillCells fresh fill cells.tail items with
      | some value, some (filled, rest) => some (value :: filled, rest)
      | _, _ => none

/-- A list field while a document is being read: the list, absent after `null`, and
the cells left over from longer lists. -/
structure Cells (α : Type) where
  shown : Option (List α)
  hidden : List α

/-- A list field before any member. -/
def Cells.empty {α : Type} : Cells α :=
  ⟨none, []⟩

/-- Fill a list field from the items of an array. -/
def fillItems {α β : Type} (fresh : α) (fill : α → β → Option α) (current : Cells α)
    (items : List β) : Option (Cells α) :=
  if items.isEmpty then some ⟨some [], []⟩
  else
    match fillCells fresh fill (current.shown.getD [] ++ current.hidden) items with
    | some (filled, rest) => some ⟨some filled, rest⟩
    | none => none

def fillList {α : Type} (fresh : α) (fill : α → Value → Option α) (current : Cells α) :
    Value → Option (Cells α)
  | .null => some .empty
  | .array items => fillItems fresh fill current items
  | _ => none

/-- Fill an optional text: `null` makes it absent. -/
def fillOptionalText (_ : Option Bytes) : Value → Option (Option Bytes)
  | .string text => some (some text)
  | .null => some none
  | _ => none

end Reroute.Json
