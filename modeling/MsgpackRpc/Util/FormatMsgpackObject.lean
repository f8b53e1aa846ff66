import MsgpackRpc.Lib.Msgpack
import MsgpackRpc.Lib.OutputIterator
import MsgpackRpc.Methods.FunctionalMethod

/-!
# Formatting of msgpack objects

`format_msgpack_object_to` for any output iterator, and the text that it is for.  `fmt` is a
dependency: its `format_to` and the text of a `double` enter as fields of `FmtLibrary`, and so does
the `double` that has the value of a `float`.
-/

namespace MsgpackRpc.Util

open Msgpack (Value)
open OutputIterator (appending positional Cursor Writes)

/-- A character in ASCII. -/
def ascii (c : Char) : UInt8 := UInt8.ofNat c.toNat

def integerText (n : Int) : List UInt8 := text (toString n)

/-- `{:02X}` -/
def hexText (byte : UInt8) : List UInt8 :=
  [byte.toNat / 16, byte.toNat % 16].map fun digit => ascii (Nat.digitChar digit).toUpper

/-- What formatting needs of `fmt`, and the conversion of a `float`. -/
structure FmtLibrary where
  /-- `fmt::format_to`, with the text that its arguments are formatted to. -/
  formatTo : {σ : Type} → OutputIterator σ UInt8 → List UInt8 → σ → σ
  /-- `{}` of a `double`, by its bits. -/
  doubleText : UInt64 → List UInt8
  toDouble : UInt32 → UInt64

/-- `format_to` writes the text through its iterator and returns the position after it. -/
structure FmtLibrary.Lawful (lib : FmtLibrary) : Prop where
  writes : ∀ formatted,
    Writes (lib.formatTo appending formatted) (lib.formatTo positional formatted) formatted 0

/-- `format_to` as a copy of the text; no text for a `double`. -/
def copyingFmt : FmtLibrary where
  formatTo it := it.copy
  doubleText _ := []
  toDouble _ := 0

theorem copyingFmt_lawful : copyingFmt.Lawful where
  writes := .copy

section Format

variable (lib : FmtLibrary) {σ : Type} (it : OutputIterator σ UInt8)

def copyStringToIterator (string : List UInt8) (s : σ) : σ := it.copy string s

def formatNil (s : σ) : σ := copyStringToIterator it (text "null") s

def formatBool (object : Bool) (s : σ) : σ :=
  if object then copyStringToIterator it (text "true") s
  else copyStringToIterator it (text "false") s

def formatStr (bytes : List UInt8) (s : σ) : σ :=
  let s := it.put s (ascii '\x22')
  let s := copyStringToIterator it bytes s
  it.put s (ascii '\x22')

/-- The loops over the bytes of a binary and of an extension. -/
def formatBytes : List UInt8 → σ → σ
  | [], s => s
  | byte :: bytes, s => formatBytes bytes (lib.formatTo it (hexText byte) s)

def formatBin (bytes : List UInt8) (s : σ) : σ :=
  let s := copyStringToIterator it (text "bin(") s
  let s := formatBytes lib it bytes s
  it.put s (ascii ')')

def formatExt (type : UInt8) (bytes : List UInt8) (s : σ) : σ :=
  let typeNumber := type.toInt8.toInt
  let s := lib.formatTo it (text "ext(" ++ integerText typeNumber ++ text ", ") s
  let s := formatBytes lib it bytes s
  it.put s (ascii ')')

/-- What stands before the elements of index `i` in the loops of arrays and maps. -/
def formatSeparator (i : Nat) (s : σ) : σ :=
  if i > 0 then
    -- both characters are assigned without an advance
    let s := it.assign s (ascii ',')
    it.assign s (ascii ' ')
  else s

mutual

/-- `format_msgpack_object_impl` -/
def formatObject : Value → σ → σ
  | .nil, s => formatNil it s
  | .boolean b, s => formatBool it b s
  | .positiveInteger n, s => lib.formatTo it (integerText n.toNat) s
  | .negativeInteger n, s => lib.formatTo it (integerText (-1 - n.toNat)) s
  | .float32 bits, s => lib.formatTo it (lib.doubleText (lib.toDouble bits)) s
  | .float64 bits, s => lib.formatTo it (lib.doubleText bits) s
  | .str bytes, s => formatStr it bytes s
  | .bin bytes, s => formatBin lib it bytes s
  | .array objects, s =>
      let s := it.put s (ascii '[')
      let s := formatItems 0 objects s
      it.put s (ascii ']')
  | .map entries, s =>
      let s := it.put s (ascii '\x7b')
      let s := formatEntries 0 entries s
      it.put s (ascii '\x7d')
  | .ext type bytes, s => formatExt lib it type bytes s

def formatItems : Nat → List Value → σ → σ
  | _, [], s => s
  | i, object :: objects, s =>
      let s := formatSeparator it i s
      let s := formatObject object s
      formatItems (i + 1) objects s

def formatEntries : Nat → List (Value × Value) → σ → σ
  | _, [], s => s
  | i, (key, val) :: entries, s =>
      let s := formatSeparator it i s
      let s := formatObject key s
      -- here, too
      let s := it.assign s (ascii ':')
      let s := it.assign s (ascii ' ')
      let s := formatObject val s
      formatEntries (i + 1) entries s

end

def formatMsgpackObjectTo (object : Value) (s : σ) : σ := formatObject lib it object s

end Format

/-- The appending iterator of a buffer that is empty. -/
def formatMsgpackObjectToString (lib : FmtLibrary) (object : Value) : List UInt8 :=
  formatMsgpackObjectTo lib appending object []

/-! ## Texts -/

section Texts

variable (lib : FmtLibrary)

def boolText (b : Bool) : List UInt8 := if b then text "true" else text "false"

def bytesText (bytes : List UInt8) : List UInt8 := bytes.flatMap hexText

mutual

def objectText : Value → List UInt8
  | .nil => text "null"
  | .boolean b => boolText b
  | .positiveInteger n => integerText n.toNat
  | .negativeInteger n => integerText (-1 - n.toNat)
  | .float32 bits => lib.doubleText (lib.toDouble bits)
  | .float64 bits => lib.doubleText bits
  | .str bytes => text "\x22" ++ bytes ++ text "\x22"
  | .bin bytes => text "bin(" ++ bytesText bytes ++ text ")"
  | .array objects => text "[" ++ (text ", ").intercalate (itemTexts objects) ++ text "]"
  | .map entries => text "\x7b" ++ (text ", ").intercalate (entryTexts entries) ++ text "\x7d"
  | .ext type bytes =>
      text "ext(" ++ integerText type.toInt8.toInt ++ text ", " ++ bytesText bytes ++ text ")"

def itemTexts : List Value → List (List UInt8)
  | [] => []
  | object :: objects => objectText object :: itemTexts objects

def entryTexts : List (Value × Value) → List (List UInt8)
  | [] => []
  | (key, val) :: entries =>
      (objectText key ++ text ": " ++ objectText val) :: entryTexts entries

end

end Texts

/-! ## Separators -/

mutual

/-- No array in the object has two elements, and no map has an element. -/
def hasNoSeparator : Value → Bool
  | .array objects => objects.length ≤ 1 && itemsHaveNoSeparator objects
  | .map entries => entries.isEmpty
  | _ => true

def itemsHaveNoSeparator : List Value → Bool
  | [] => true
  | object :: objects => hasNoSeparator object && itemsHaveNoSeparator objects

end

mutual

/-- How many characters are assigned without an advance. -/
def missedAdvances : Value → Nat
  | .array objects => missedInItems 0 objects
  | .map entries => missedInEntries 0 entries
  | _ => 0

def missedInItems : Nat → List Value → Nat
  | _, [] => 0
  | i, object :: objects =>
      (if i > 0 then 2 else 0) + missedAdvances object + missedInItems (i + 1) objects

def missedInEntries : Nat → List (Value × Value) → Nat
  | _, [] => 0
  | i, (key, val) :: entries =>
      (if i > 0 then 2 else 0) + (missedAdvances key + 2 + missedAdvances val) +
        missedInEntries (i + 1) entries

end

/-! ## What is written -/

section WhatIsWritten

variable {lib : FmtLibrary}

theorem writes_bool (b : Bool) :
    Writes (formatBool appending b) (formatBool positional b) (boolText b) 0 := by
  cases b with
  | false => exact .copy _
  | true => exact .copy _

theorem writes_bytes (hlib : lib.Lawful) (bytes : List UInt8) :
    Writes (formatBytes lib appending bytes) (formatBytes lib positional bytes)
      (bytesText bytes) 0 := by
  induction bytes with
  | nil => exact .nothing
  | cons byte bytes ih => exact (hlib.writes (hexText byte)).comp ih

theorem writes_separator (i : Nat) :
    Writes (formatSeparator appending i) (formatSeparator positional i)
      (if i > 0 then text ", " else []) (if i > 0 then 2 else 0) := by
  cases i with
  | zero => exact .nothing
  | succ i => exact (Writes.assign (ascii ',')).comp (.assign (ascii ' '))

/-- The texts of the elements from the index `i` on. -/
def joinFrom : Nat → List (List UInt8) → List UInt8
  | _, [] => []
  | i, first :: rest => (if i > 0 then text ", " else []) ++ first ++ joinFrom (i + 1) rest

theorem intercalate_append_joinFrom (first : List UInt8) (rest : List (List UInt8)) (i : Nat) :
    first ++ joinFrom (i + 1) rest = (text ", ").intercalate (first :: rest) := by
  induction rest generalizing first i with
  | nil => rw [joinFrom, List.append_nil, List.intercalate_singleton]
  | cons second rest ih =>
    rw [joinFrom, if_pos (Nat.succ_pos i), List.append_assoc, ih second (i + 1),
      List.intercalate_cons_cons, List.append_assoc]

theorem joinFrom_zero (texts : List (List UInt8)) :
    joinFrom 0 texts = (text ", ").intercalate texts := by
  cases texts with
  | nil => rfl
  | cons first rest =>
    rw [joinFrom, if_neg (Nat.lt_irrefl 0), List.nil_append, intercalate_append_joinFrom]

mutual

-- one case for each kind of object; the loops pass their index on
theorem writes_object (hlib : lib.Lawful) (object : Value) :
    Writes (formatObject lib appending object) (formatObject lib positional object)
      (objectText lib object) (missedAdvances object) := by
  cases object with
  | nil => exact .copy _
  | boolean b => exact writes_bool b
  | positiveInteger n => exact hlib.writes _
  | negativeInteger n => exact hlib.writes _
  | float32 bits => exact hlib.writes _
  | float64 bits => exact hlib.writes _
  | str bytes => exact ((Writes.put (ascii '\x22')).comp (.copy bytes)).comp (.put (ascii '\x22'))
  | bin bytes =>
    exact ((Writes.copy (text "bin(")).comp (writes_bytes hlib bytes)).comp (.put (ascii ')'))
  | array objects =>
    have hitems := writes_items hlib 0 objects
    rw [joinFrom_zero] at hitems
    have hall := ((Writes.put (ascii '[')).comp hitems).comp (.put (ascii ']'))
    rw [Nat.add_zero, Nat.zero_add] at hall
    exact hall
  | map entries =>
    have hentries := writes_entries hlib 0 entries
    rw [joinFrom_zero] at hentries
    have hall := ((Writes.put (ascii '\x7b')).comp hentries).comp (.put (ascii '\x7d'))
    rw [Nat.add_zero, Nat.zero_add] at hall
    exact hall
  | ext type bytes =>
    exact ((hlib.writes (text "ext(" ++ integerText type.toInt8.toInt ++ text ", ")).comp
      (writes_bytes hlib bytes)).comp (.put (ascii ')'))

theorem writes_items (hlib : lib.Lawful) (i : Nat) (objects : List Value) :
    Writes (formatItems lib appending i objects) (formatItems lib positional i objects)
      (joinFrom i (itemTexts lib objects)) (missedInItems i objects) := by
  cases objects with
  | nil => exact .nothing
  | cons object objects =>
    exact ((writes_separator i).comp (writes_object hlib object)).comp
      (writes_items hlib (i + 1) objects)

theorem writes_entries (hlib : lib.Lawful) (i : Nat) (entries : List (Value × Value)) :
    Writes (formatEntries lib appending i entries) (formatEntries lib positional i entries)
      (joinFrom i (entryTexts lib entries)) (missedInEntries i entries) := by
  cases entries with
  | nil => exact .nothing
  | cons entry entries =>
    obtain ⟨key, val⟩ := entry
    have hcolon := (Writes.assign (ascii ':')).comp (.assign (ascii ' '))
    have hentry := ((writes_object hlib key).comp hcolon).comp (writes_object hlib val)
    exact ((writes_separator i).comp hentry).comp (writes_entries hlib (i + 1) entries)

end

end WhatIsWritten

/-! ## Where advances are missing -/

mutual

theorem missedAdvances_eq_zero_iff (object : Value) :
    missedAdvances object = 0 ↔ hasNoSeparator object = true := by
  cases object with
  | array objects =>
    rw [missedAdvances, hasNoSeparator, Bool.and_eq_true, decide_eq_true_iff]
    exact missedInItems_eq_zero_iff objects
  | map entries =>
    rw [missedAdvances, hasNoSeparator]
    cases entries with
    | nil => exact iff_of_true rfl rfl
    | cons entry entries =>
      refine iff_of_false ?_ Bool.false_ne_true
      rw [missedInEntries]
      omega
  | nil => exact iff_of_true rfl rfl
  | boolean b => exact iff_of_true rfl rfl
  | positiveInteger n => exact iff_of_true rfl rfl
  | negativeInteger n => exact iff_of_true rfl rfl
  | float32 bits => exact iff_of_true rfl rfl
  | float64 bits => exact iff_of_true rfl rfl
  | str bytes => exact iff_of_true rfl rfl
  | bin bytes => exact iff_of_true rfl rfl
  | ext type bytes => exact iff_of_true rfl rfl

theorem missedInItems_eq_zero_iff (objects : List Value) :
    missedInItems 0 objects = 0 ↔ objects.length ≤ 1 ∧ itemsHaveNoSeparator objects = true := by
  cases objects with
  | nil => exact iff_of_true rfl ⟨Nat.zero_le 1, rfl⟩
  | cons object objects =>
    have hobject := missedAdvances_eq_zero_iff object
    cases objects with
    | nil =>
      rw [missedInItems, missedInItems, if_neg (Nat.lt_irrefl 0), Nat.add_zero, Nat.zero_add,
        hobject, itemsHaveNoSeparator, itemsHaveNoSeparator, Bool.and_true]
      exact (and_iff_right (Nat.le_refl 1)).symm
    | cons second objects =>
      -- the second element has a separator before it
      refine iff_of_false ?_ fun h => ?_
      · rw [missedInItems, missedInItems, if_pos (Nat.succ_pos 0)]
        omega
      · have hlength := h.1
        rw [List.length_cons, List.length_cons] at hlength
        omega

end

/-- `format_msgpack_object_to_string` -/
theorem formatMsgpackObjectToString_eq {lib : FmtLibrary} (hlib : lib.Lawful) (object : Value) :
    formatMsgpackObjectToString lib object = objectText lib object :=
  (writes_object hlib object).appends []

example : formatMsgpackObjectToString copyingFmt
    (.map [(.array [.str (text "abc")], .bin [0, 160]), (.negativeInteger 4, .ext 255 [])]) =
      text "\x7b[\x22abc\x22]: bin(00A0), -5: ext(-1, )\x7d" := by
  decide

/-- A pointer gets the text that is appended, and is returned just after it, exactly for the objects
without separators. -/
theorem format_positional_iff (lib : FmtLibrary) (hlib : lib.Lawful) (object : Value)
    (cursor : Cursor UInt8) :
    formatMsgpackObjectTo lib positional object cursor =
        cursor.write (formatMsgpackObjectTo lib appending object []) ↔
      hasNoSeparator object = true := by
  rw [← missedAdvances_eq_zero_iff]
  exact (writes_object hlib object).write_eq_iff cursor

/-- A zeroed memory. -/
def zeroed : Cursor UInt8 where
  memory _ := 0
  position := 0

theorem format_singleton_positional :
    formatMsgpackObjectTo copyingFmt positional (.array [.str (text "abc")]) zeroed =
      zeroed.write (text "[\x22abc\x22]") :=
  (format_positional_iff copyingFmt copyingFmt_lawful (.array [.str (text "abc")]) zeroed).mpr rfl

/-- An array with two elements: the second element is written over its separator. -/
theorem format_pair_positional :
    ¬ ∀ (object : Value) (cursor : Cursor UInt8),
      formatMsgpackObjectTo copyingFmt positional object cursor =
        cursor.write (formatMsgpackObjectTo copyingFmt appending object []) := by
  intro h
  have hpair := h (.array [.positiveInteger 12345, .str (text "abc")]) zeroed
  have hposition := congrArg Cursor.position hpair
  revert hposition
  decide

end MsgpackRpc.Util
