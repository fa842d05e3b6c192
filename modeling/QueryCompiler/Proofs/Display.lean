import Mathlib.Data.List.Basic
import QueryCompiler.Value

/-! # `QueryCompiler.Proofs.Display` — displayed values can be read back

The first characters of a displayed value tell what kind it is of, doubles apart:

    '          text, up to the quote that closes it; a quote inside is written twice
    X'         a blob, two capital hexadecimal digits for each byte
    N, t, f    null and the truth values
    -, 0 .. 9  a whole number

So it does not matter what a text looks like: one that reads `NULL`, `17` or `X'00'` is displayed with
quotes around it and with its own quotes doubled.  `Value.ofDisplay?` reads a displayed value, and it
accepts nothing else.  A double may look like a whole number, and is not read.
-/

namespace QueryCompiler.Value

/-! ## Text -/

/-- Every quote among the characters is one of a pair that stands together. -/
inductive QuotesPaired : List Char → Prop
  | nil : QuotesPaired []
  | other {c cs} : c ≠ '\'' → QuotesPaired cs → QuotesPaired (c :: cs)
  | pair {cs} : QuotesPaired cs → QuotesPaired ('\'' :: '\'' :: cs)

/-- Reads a text behind its first quote, up to the quote that closes it. -/
def readText : List Char → Option (List Char)
  | [] => none
  | [c] => if c = '\'' then some [] else none
  | c :: c' :: cs =>
    if c = '\'' then
      if c' = '\'' then (readText cs).map ('\'' :: ·) else none
    else (readText (c' :: cs)).map (c :: ·)

theorem quotesPaired_doubleQuotes (cs : List Char) : QuotesPaired (doubleQuotes cs) := by
  induction cs with
  | nil => exact .nil
  | cons c cs ih =>
      rw [doubleQuotes]
      split
      · exact .pair ih
      · next hc => exact .other hc ih

/-- A character that is no quote is read as it stands. -/
theorem readText_cons_of_ne {c : Char} (hc : c ≠ '\'') (cs : List Char) :
    readText (c :: cs) = (readText cs).map (c :: ·) := by
  cases cs with
  | nil => exact if_neg hc
  | cons c' cs => rw [readText, if_neg hc]

theorem readText_doubleQuotes (cs : List Char) :
    readText (doubleQuotes cs ++ ['\'']) = some cs := by
  induction cs with
  | nil => rfl
  | cons c cs ih =>
      by_cases hc : c = '\''
      · subst hc
        rw [doubleQuotes, if_pos rfl]
        show (readText (doubleQuotes cs ++ ['\''])).map ('\'' :: ·) = _
        rw [ih]
        rfl
      · rw [doubleQuotes, if_neg hc, List.cons_append, readText_cons_of_ne hc, ih]
        rfl

/-- Only a text with its quotes doubled and closed is read. -/
theorem eq_of_readText {cs text : List Char} (h : readText cs = some text) :
    cs = doubleQuotes text ++ ['\''] := by
  fun_induction readText cs generalizing text with
  | case1 => cases h
  | case2 =>
      cases h
      rfl
  | case3 => cases h
  | case4 cs ih =>
      obtain ⟨rest, hrest, rfl⟩ := Option.map_eq_some_iff.1 h
      rw [ih hrest, doubleQuotes, if_pos rfl]
      rfl
  | case5 => cases h
  | case6 c c' cs hc ih =>
      obtain ⟨rest, hrest, rfl⟩ := Option.map_eq_some_iff.1 h
      rw [ih hrest, doubleQuotes, if_neg hc]
      rfl

/-! ## Blobs -/

/-- The number of a hexadecimal digit in capital form. -/
def readHexDigit (c : Char) : Option Nat := (List.range 16).find? (hexDigit · = c)

/-- Reads a blob behind its first quote, up to the quote that closes it. -/
def readBytes : List Char → Option (List UInt8)
  | [] => none
  | [c] => if c = '\'' then some [] else none
  | c :: c' :: cs => do
    let high ← readHexDigit c
    let low ← readHexDigit c'
    let bytes ← readBytes cs
    return UInt8.ofNat (16 * high + low) :: bytes

theorem readHexDigit_eq_some_iff {c : Char} {n : Nat} :
    readHexDigit c = some n ↔ n < 16 ∧ c = hexDigit n := by
  constructor
  · intro h
    have hmem := List.mem_of_find?_eq_some h
    have hdigit := List.find?_some h
    exact ⟨List.mem_range.1 hmem, (of_decide_eq_true hdigit).symm⟩
  · rintro ⟨hn, rfl⟩
    have hall : ∀ k < 16, readHexDigit (hexDigit k) = some k := by decide
    exact hall n hn

theorem readBytes_flatMap (bytes : List UInt8) :
    readBytes (bytes.flatMap hexByte ++ ['\'']) = some bytes := by
  induction bytes with
  | nil => rfl
  | cons b bytes ih =>
      have hb : b.toNat < 256 := b.toNat_lt
      have hhigh : readHexDigit (hexDigit (b.toNat / 16)) = some (b.toNat / 16) :=
        readHexDigit_eq_some_iff.2 ⟨by omega, rfl⟩
      have hlow : readHexDigit (hexDigit (b.toNat % 16)) = some (b.toNat % 16) :=
        readHexDigit_eq_some_iff.2 ⟨by omega, rfl⟩
      have hhalves : 16 * (b.toNat / 16) + b.toNat % 16 = b.toNat := by omega
      show readBytes (hexDigit (b.toNat / 16) :: hexDigit (b.toNat % 16) ::
        (bytes.flatMap hexByte ++ ['\''])) = _
      rw [readBytes, hhigh, hlow, ih]
      show some (UInt8.ofNat (16 * (b.toNat / 16) + b.toNat % 16) :: bytes) = _
      rw [hhalves, UInt8.ofNat_toNat]

/-- Only two capital digits for each byte and the closing quote are read. -/
theorem eq_of_readBytes {cs : List Char} {bytes : List UInt8} (h : readBytes cs = some bytes) :
    cs = bytes.flatMap hexByte ++ ['\''] := by
  fun_induction readBytes cs generalizing bytes with
  | case1 => cases h
  | case2 =>
      cases h
      rfl
  | case3 => cases h
  | case4 c c' cs ih =>
      simp only [Option.bind_eq_bind, Option.bind_eq_some_iff, Option.pure_def,
        Option.some.injEq] at h
      obtain ⟨high, hhigh, low, hlow, rest, hrest, rfl⟩ := h
      obtain ⟨hh, rfl⟩ := readHexDigit_eq_some_iff.1 hhigh
      obtain ⟨hl, rfl⟩ := readHexDigit_eq_some_iff.1 hlow
      have hbyte : (UInt8.ofNat (16 * high + low)).toNat = 16 * high + low := by
        rw [UInt8.toNat_ofNat']
        omega
      have hfirst : (16 * high + low) / 16 = high := by omega
      have hsecond : (16 * high + low) % 16 = low := by omega
      rw [ih hrest, List.flatMap_cons, hexByte, hbyte, hfirst, hsecond]
      rfl

theorem readBytes_eq_some_iff {cs : List Char} {bytes : List UInt8} :
    readBytes cs = some bytes ↔ cs = bytes.flatMap hexByte ++ ['\''] := by
  constructor
  · exact eq_of_readBytes
  · rintro rfl
    exact readBytes_flatMap bytes

/-- Reads a blob behind its first character. -/
def readBlob : List Char → Option (List UInt8)
  | [] => none
  | c :: cs => if c = '\'' then readBytes cs else none

theorem readBlob_eq_some_iff {cs : List Char} {bytes : List UInt8} :
    readBlob cs = some bytes ↔ cs = '\'' :: (bytes.flatMap hexByte ++ ['\'']) := by
  cases cs with
  | nil => simp [readBlob]
  | cons c cs =>
      by_cases hc : c = '\''
      · rw [readBlob, if_pos hc, readBytes_eq_some_iff, hc, List.cons.injEq, and_iff_right rfl]
      · simp [readBlob, hc]

/-! ## Whole numbers -/

/-- The number that digits stand for, with a sign in front or not. -/
def signedNumber : List Char → Int
  | [] => 0
  | c :: cs =>
    if c = '-' then -(Nat.ofDigitChars 10 cs 0 : Nat) else (Nat.ofDigitChars 10 (c :: cs) 0 : Nat)

/-- Reads a whole number, if it is written the way in which it is displayed. -/
def readInt (text : String) : Option Int64 :=
  let n := Int64.ofInt (signedNumber text.toList)
  if toString n.toInt = text then some n else none

/-- A whole number starts with a sign or a digit, and its digits stand for it. -/
theorem toList_toString_int (n : Int) :
    ∃ c cs, (toString n).toList = c :: cs ∧ (c = '-' ∨ c.isDigit = true) ∧
      signedNumber (c :: cs) = n := by
  rw [Int.toString_eq_repr, Int.repr_eq_if]
  split
  · next hn =>
      obtain ⟨c, cs, hcs⟩ :=
        List.exists_cons_of_ne_nil (Nat.toDigits_ne_nil (b := 10) (n := n.toNat))
      have hc : c.isDigit = true :=
        Nat.isDigit_of_mem_toDigits (by decide) (by decide) (hcs ▸ List.mem_cons_self)
      have hsign : c ≠ '-' := by
        rintro rfl
        exact absurd hc (by decide)
      refine ⟨c, cs, ?_, .inr hc, ?_⟩
      · rw [Nat.repr_eq_ofList_toDigits, String.toList_ofList, hcs]
      · rw [signedNumber, if_neg hsign, ← hcs, Nat.ofDigitChars_ten_toDigits]
        omega
  · next hn =>
      refine ⟨'-', Nat.toDigits 10 (-n).toNat, ?_, .inl rfl, ?_⟩
      · simp [Nat.repr_eq_ofList_toDigits]
      · rw [signedNumber, if_pos rfl, Nat.ofDigitChars_ten_toDigits]
        omega

theorem readInt_eq_some_iff {text : String} {n : Int64} :
    readInt text = some n ↔ text = toString n.toInt := by
  constructor
  · intro h
    unfold readInt at h
    dsimp only at h
    split at h
    · next hshown =>
        obtain rfl := Option.some.inj h
        exact hshown.symm
    · cases h
  · rintro rfl
    obtain ⟨c, cs, hcs, -, hnumber⟩ := toList_toString_int n.toInt
    rw [readInt, hcs, hnumber, Int64.ofInt_toInt]
    exact if_pos rfl

/-! ## Values -/

/-- Reads a displayed value that is no double; the first character tells its kind. -/
def ofDisplay? (text : String) : Option Value :=
  match text.toList with
  | [] => none
  | c :: cs =>
    if c = '\'' then (readText cs).map fun s => .text (String.ofList s)
    else if c = 'X' then (readBlob cs).map .blob
    else if c = 'N' then if text = "NULL" then some .null else none
    else if c = 't' then if text = "true" then some (.bool true) else none
    else if c = 'f' then if text = "false" then some (.bool false) else none
    else (readInt text).map .int

theorem ofDisplay?_display {v : Value} (hv : v.kind ≠ "float") : ofDisplay? v.display = some v := by
  cases v with
  | null => rfl
  | bool b => cases b <;> rfl
  | float x => exact absurd rfl hv
  | text s =>
      rw [ofDisplay?, display, String.toList_ofList]
      show (readText (doubleQuotes s.toList ++ ['\''])).map _ = _
      rw [readText_doubleQuotes, Option.map_some, String.ofList_toList]
  | blob bytes =>
      rw [ofDisplay?, display, String.toList_ofList]
      show (readBlob ('\'' :: (bytes.flatMap hexByte ++ ['\'']))).map _ = _
      rw [readBlob_eq_some_iff.2 rfl, Option.map_some]
  | int n =>
      obtain ⟨c, cs, hcs, hc, -⟩ := toList_toString_int n.toInt
      have hother : c ≠ '\'' ∧ c ≠ 'X' ∧ c ≠ 'N' ∧ c ≠ 't' ∧ c ≠ 'f' := by
        refine ⟨?_, ?_, ?_, ?_, ?_⟩ <;>
        · rintro rfl
          exact absurd hc (by decide)
      obtain ⟨hquote, hX, hN, ht, hf⟩ := hother
      rw [ofDisplay?, display, hcs]
      dsimp only
      rw [if_neg hquote, if_neg hX, if_neg hN, if_neg ht, if_neg hf, readInt_eq_some_iff.2 rfl,
        Option.map_some]

/-- Nothing but a displayed value is read. -/
theorem display_of_ofDisplay? {text : String} {v : Value} (h : ofDisplay? text = some v) :
    v.kind ≠ "float" ∧ v.display = text := by
  unfold ofDisplay? at h
  split at h
  · cases h
  · next c cs hcs =>
      have htext : text = String.ofList (c :: cs) := by rw [← hcs, String.ofList_toList]
      split_ifs at h with hquote hX hN hnull ht htrue hf hfalse
      · obtain ⟨s, hs, rfl⟩ := Option.map_eq_some_iff.1 h
        refine ⟨show "text" ≠ "float" by decide, ?_⟩
        rw [htext, hquote, eq_of_readText hs, display, String.toList_ofList]
        rfl
      · obtain ⟨bytes, hbytes, rfl⟩ := Option.map_eq_some_iff.1 h
        refine ⟨show "blob" ≠ "float" by decide, ?_⟩
        rw [htext, hX, readBlob_eq_some_iff.1 hbytes, display]
        rfl
      · obtain rfl := Option.some.inj h
        exact ⟨by decide, hnull.symm⟩
      · obtain rfl := Option.some.inj h
        exact ⟨by decide, htrue.symm⟩
      · obtain rfl := Option.some.inj h
        exact ⟨by decide, hfalse.symm⟩
      · obtain ⟨n, hn, rfl⟩ := Option.map_eq_some_iff.1 h
        exact ⟨show "int" ≠ "float" by decide, (readInt_eq_some_iff.1 hn).symm⟩

/-- Displayed values can be read back, doubles apart.  Two values with one text are the same, the
reader accepts the texts of values and gives back these values, and between the quotes around a text
every quote is one of a pair. -/
theorem display_readBack :
    (∀ v w : Value, v.kind ≠ "float" → w.kind ≠ "float" → v.display = w.display → v = w) ∧
    (∀ (text : String) (v : Value),
      ofDisplay? text = some v ↔ v.kind ≠ "float" ∧ v.display = text) ∧
    ∀ s : String, ∃ inner : List Char, QuotesPaired inner ∧
      (Value.text s).display = String.ofList ('\'' :: (inner ++ ['\''])) := by
  refine ⟨?_, ?_, ?_⟩
  · intro v w hv hw h
    have hread : some v = some w := by
      rw [← ofDisplay?_display hv, h, ofDisplay?_display hw]
    exact Option.some.inj hread
  · intro text v
    constructor
    · exact display_of_ofDisplay?
    · rintro ⟨hv, rfl⟩
      exact ofDisplay?_display hv
  · intro s
    exact ⟨doubleQuotes s.toList, quotesPaired_doubleQuotes _, rfl⟩

/-- Texts that look like other values, one of them quotes in the main. -/
theorem display_readBack_lookalikes :
    (Value.text "''X'").display = "'''''X'''" ∧
    ofDisplay? "'''''X'''" = some (.text "''X'") ∧ ofDisplay? "X'00FF'" = some (.blob [0, 255]) ∧
    ofDisplay? "'X''00FF'''" = some (.text "X'00FF'") ∧
    ofDisplay? "-9223372036854775808" = some (.int Int64.minValue) ∧
    (Value.text "NULL").display ≠ Value.null.display := by
  obtain ⟨hinjective, hread, -⟩ := display_readBack
  refine ⟨by decide, (hread _ (.text "''X'")).2 ⟨by decide, by decide⟩,
    (hread _ (.blob [0, 255])).2 ⟨by decide, by decide⟩,
    (hread _ (.text "X'00FF'")).2 ⟨by decide, by decide⟩,
    (hread _ (.int Int64.minValue)).2 ⟨by decide, by decide⟩, ?_⟩
  intro h
  exact absurd (hinjective (.text "NULL") .null (by decide) (by decide) h) (by decide)

-- a double may be displayed as a whole number is
example : (Value.float ⟨0x3FF0000000000000⟩).display = (Value.int 1).display := by decide +kernel

end QueryCompiler.Value
