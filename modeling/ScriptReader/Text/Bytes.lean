/- # ScriptReader.Text.Bytes — text measured in bytes

Offsets into a text count the bytes of its UTF-8 form. An offset is usable where
a character starts or the text ends: `afterBytes?` gives the rest from there, and
nothing for an offset inside a character or past the end.
-/
namespace ScriptReader

set_option autoImplicit false

namespace Text

/-- The number of bytes of a text. -/
def byteSize : List Char → Nat
  | [] => 0
  | c :: rest => c.utf8Size + byteSize rest

/-- The text from a byte offset on. -/
def afterBytes? : Nat → List Char → Option (List Char)
  | 0, text => some text
  | _ + 1, [] => none
  | offset + 1, c :: rest =>
    if c.utf8Size ≤ offset + 1 then afterBytes? (offset + 1 - c.utf8Size) rest else none

/-- The number of line feeds in a text. -/
def lineFeeds (text : List Char) : Nat := text.count '\n'

/-- The number of line feeds in a text, in the 32 bits in which lines are counted. -/
def lineCount (text : List Char) : UInt32 := .ofNat (lineFeeds text)

@[simp] theorem byteSize_nil : byteSize [] = 0 := rfl

@[simp] theorem lineCount_nil : lineCount [] = 0 := rfl

theorem byteSize_cons (c : Char) (text : List Char) :
    byteSize (c :: text) = c.utf8Size + byteSize text := rfl

theorem byteSize_append (left right : List Char) :
    byteSize (left ++ right) = byteSize left + byteSize right := by
  induction left with
  | nil => simp [byteSize]
  | cons c left ih => rw [List.cons_append, byteSize_cons, byteSize_cons, ih, Nat.add_assoc]

theorem lineFeeds_append (left right : List Char) :
    lineFeeds (left ++ right) = lineFeeds left + lineFeeds right := by
  simp [lineFeeds]

theorem lineFeeds_of_not_mem {text : List Char} (absent : '\n' ∉ text) : lineFeeds text = 0 :=
  List.count_eq_zero.mpr absent

theorem lineCount_append (left right : List Char) :
    lineCount (left ++ right) = lineCount left + lineCount right := by
  rw [lineCount, lineFeeds_append, UInt32.ofNat_add]
  rfl

/-- The offset just behind a beginning of the text leads to what follows it. -/
theorem afterBytes?_append (left right : List Char) :
    afterBytes? (byteSize left) (left ++ right) = some right := by
  induction left with
  | nil => rw [show byteSize [] = 0 from rfl, afterBytes?.eq_def]; rfl
  | cons c left ih =>
      have positive : 0 < c.utf8Size := Char.utf8Size_pos c
      obtain ⟨size, equation⟩ : ∃ size, byteSize (c :: left) = size + 1 :=
        ⟨byteSize (c :: left) - 1, by rw [byteSize_cons]; omega⟩
      rw [equation, List.cons_append, afterBytes?]
      have total : size + 1 = c.utf8Size + byteSize left := by rw [← equation, byteSize_cons]
      rw [if_pos (by omega), total, Nat.add_sub_cancel_left, ih]

end Text

end ScriptReader
