import Mathlib.Data.List.Basic

/-!
# Flat JSON Objects

The text of a JSON object whose values are numbers, strings or null, as a compact
printer writes it, and a reader for such texts.

A string is written with escapes for quotes, backslashes and control characters, and
everything else as it is. Whatever the string, what is written has no character below
the space in it, and a reader that starts behind the opening quote stops at the closing
one (`scanString_quoted`). That is all the rest needs: a value is read back with
whatever follows it, a number with whatever is no digit, and an object with its fields
in their order.

## Main definitions

* `Scalar`: A value of a field.
* `encode`: The text of an object.
* `decode`: The fields of an object.

## Theorems

* `scanString_quoted`: A string is read back.
* `decode_encode`: An object is read back.
* `printable_encode`: There is no control character in the text of an object.
-/

namespace FlatJson

/-- A value of a field. -/
inductive Scalar
  | null
  | num (n : Nat)
  | str (s : List Char)
  deriving DecidableEq

/-- A character that has an escape of two characters, and its letter. -/
def shortEscapes : List (Char × Char) :=
  [('"', '"'), ('\\', '\\'), ('\x08', 'b'), ('\t', 't'), ('\n', 'n'), ('\x0c', 'f'), ('\r', 'r')]

/-- A character inside of a string. -/
def escapeChar (c : Char) : List Char :=
  match shortEscapes.lookup c with
  | some letter => ['\\', letter]
  | none =>
    if c.toNat < 32 then
      ['\\', 'u', '0', '0', (c.toNat / 16).digitChar, (c.toNat % 16).digitChar]
    else [c]

/-- A string behind its opening quote. -/
def quoted (s : List Char) : List Char := s.flatMap escapeChar ++ ['"']

def encodeScalar : Scalar → List Char
  | .null => ['n', 'u', 'l', 'l']
  | .num n => Nat.toDigits 10 n
  | .str s => '"' :: quoted s

def encodeField (field : List Char × Scalar) : List Char :=
  '"' :: quoted field.1 ++ ':' :: encodeScalar field.2

/-- The fields of an object and what closes it. -/
def encodeFields : List (List Char × Scalar) → List Char
  | [] => ['}']
  | [field] => encodeField field ++ ['}']
  | field :: fields => encodeField field ++ ',' :: encodeFields fields

/-- The text of an object. -/
def encode (fields : List (List Char × Scalar)) : List Char := '{' :: encodeFields fields

/-! ### Reading -/

/-- The value of a hexadecimal digit. -/
def hexValue (c : Char) : Option Nat := (List.range 16).find? (fun n => n.digitChar == c)

/-- What four hexadecimal digits stand for. -/
def hexChar (a b c d : Char) : Option Char := do
  let a ← hexValue a
  let b ← hexValue b
  let c ← hexValue c
  let d ← hexValue d
  some (Char.ofNat (((a * 16 + b) * 16 + c) * 16 + d))

/-- The character of a letter behind a backslash. -/
def unescape (letter : Char) : Option Char :=
  (shortEscapes.find? (fun e => e.2 == letter)).map Prod.fst

/-- A string up to its closing quote, and what follows. -/
def scanString : List Char → Option (List Char × List Char)
  | [] => none
  | c :: rest =>
    if c = '"' then some ([], rest)
    else if c = '\\' then
      match rest with
      | 'u' :: a :: b :: c :: d :: rest =>
        (hexChar a b c d).bind (fun c => (scanString rest).map (fun p => (c :: p.1, p.2)))
      | letter :: rest =>
        (unescape letter).bind (fun c => (scanString rest).map (fun p => (c :: p.1, p.2)))
      | [] => none
    else if c.toNat < 32 then none
    else (scanString rest).map (fun p => (c :: p.1, p.2))

/-- A value, and what follows. -/
def scanScalar : List Char → Option (Scalar × List Char)
  | 'n' :: 'u' :: 'l' :: 'l' :: rest => some (.null, rest)
  | '"' :: rest => (scanString rest).map (fun p => (.str p.1, p.2))
  | cs =>
    let digits := cs.takeWhile Char.isDigit
    if digits.isEmpty then none
    else some (.num (Nat.ofDigitChars 10 digits 0), cs.dropWhile Char.isDigit)

/-- A field, and what follows. -/
def scanField : List Char → Option ((List Char × Scalar) × List Char)
  | '"' :: rest =>
    match scanString rest with
    | some (key, ':' :: rest) => (scanScalar rest).map (fun p => ((key, p.1), p.2))
    | _ => none
  | _ => none

/-- The fields of an object up to what closes it, which is the end. -/
def scanFields : Nat → List Char → Option (List (List Char × Scalar))
  | 0, _ => none
  | fuel + 1, cs =>
    match scanField cs with
    | some (field, ',' :: rest) => (scanFields fuel rest).map (fun fields => field :: fields)
    | some (field, ['}']) => some [field]
    | _ => none

/-- The fields of an object. There is fuel for as many as there are characters. -/
def decode : List Char → Option (List (List Char × Scalar))
  | ['{', '}'] => some []
  | '{' :: rest => scanFields rest.length rest
  | _ => none

/-! ### Strings -/

theorem escapeChar_of_short {c letter : Char} (h : shortEscapes.lookup c = some letter) :
    escapeChar c = ['\\', letter] := by
  unfold escapeChar
  rw [h]

theorem escapeChar_of_plain {c : Char} (hshort : shortEscapes.lookup c = none)
    (hplain : ¬ c.toNat < 32) : escapeChar c = [c] := by
  unfold escapeChar
  rw [hshort]
  exact if_neg hplain

theorem escapeChar_of_control {c : Char} (hshort : shortEscapes.lookup c = none)
    (hcontrol : c.toNat < 32) : escapeChar c
      = ['\\', 'u', '0', '0', (c.toNat / 16).digitChar, (c.toNat % 16).digitChar] := by
  unfold escapeChar
  rw [hshort]
  exact if_pos hcontrol

/-- A letter stands for one character, and is none that starts a longer escape. -/
theorem unescape_of_short {c letter : Char} (h : shortEscapes.lookup c = some letter) :
    unescape letter = some c ∧ letter ≠ 'u' ∧ 32 ≤ letter.toNat := by
  have hmem : (c, letter) ∈ shortEscapes := by
    rw [List.lookup_eq_some_iff] at h
    rcases h with ⟨before, after, hsplit, _⟩
    rw [hsplit]
    exact List.mem_append_right _ List.mem_cons_self
  have hall : ∀ e ∈ shortEscapes, unescape e.2 = some e.1 ∧ e.2 ≠ 'u' ∧ 32 ≤ e.2.toNat := by
    decide
  exact hall (c, letter) hmem

theorem hexChar_digits : ∀ n < 32,
    hexChar '0' '0' (n / 16).digitChar (n % 16).digitChar = some (Char.ofNat n) := by
  decide

/-- A character that is not one of the short escapes is no quote and no backslash. -/
theorem ne_of_lookup_none {c : Char} (h : shortEscapes.lookup c = none) :
    c ≠ '"' ∧ c ≠ '\\' := by
  constructor <;> rintro rfl <;> exact absurd h (by decide)

/-- An escaped character is read back. -/
theorem scanString_escapeChar (c : Char) (rest : List Char) :
    scanString (escapeChar c ++ rest)
      = (scanString rest).map (fun p => (c :: p.1, p.2)) := by
  cases hshort : shortEscapes.lookup c with
  | some letter =>
      rcases unescape_of_short hshort with ⟨hletter, hu, _⟩
      rw [escapeChar_of_short hshort, List.cons_append, List.singleton_append]
      have hscan : scanString ('\\' :: letter :: rest) = (unescape letter).bind
          (fun c => (scanString rest).map (fun p => (c :: p.1, p.2))) := by
        rw [scanString, if_neg (by decide), if_pos rfl]
        exact fun _ _ _ _ _ h => absurd h hu
      rw [hscan, hletter]
      rfl
  | none =>
      by_cases hcontrol : c.toNat < 32
      · rw [escapeChar_of_control hshort hcontrol]
        have hscan : ∀ d e, scanString ('\\' :: 'u' :: '0' :: '0' :: d :: e :: rest)
            = (hexChar '0' '0' d e).bind
              (fun c => (scanString rest).map (fun p => (c :: p.1, p.2))) := by
          intro d e
          rw [scanString.eq_def]
          rfl
        simp only [List.cons_append, List.nil_append]
        rw [hscan, hexChar_digits c.toNat hcontrol, Char.ofNat_toNat]
        rfl
      · rcases ne_of_lookup_none hshort with ⟨hquote, hslash⟩
        rw [escapeChar_of_plain hshort hcontrol, List.singleton_append, scanString.eq_def]
        dsimp only
        rw [if_neg hquote, if_neg hslash, if_neg hcontrol]

/-- A string is read back, and what follows it is left. -/
theorem scanString_quoted (s rest : List Char) :
    scanString (quoted s ++ rest) = some (s, rest) := by
  unfold quoted
  rw [List.append_assoc]
  induction s with
  | nil =>
      rw [List.flatMap_nil, List.nil_append, List.singleton_append, scanString.eq_def]
      rfl
  | cons c s ih =>
      rw [List.flatMap_cons, List.append_assoc, scanString_escapeChar, ih]
      rfl

/-! ### Values and fields -/

/-- What starts with no digit. -/
def NoDigit (cs : List Char) : Prop := ∀ c ∈ cs.head?, c.isDigit = false

theorem noDigit_cons {c : Char} (hc : c.isDigit = false) (rest : List Char) :
    NoDigit (c :: rest) := by
  intro d hd
  rw [← Option.mem_some.mp hd]
  exact hc

/-- Digits that start a text are read as a number. -/
theorem scanScalar_digits {d : Char} {ds rest : List Char}
    (hds : ∀ c ∈ d :: ds, c.isDigit = true) (hrest : NoDigit rest) :
    scanScalar (d :: ds ++ rest) = some (.num (Nat.ofDigitChars 10 (d :: ds) 0), rest) := by
  have hd := hds d List.mem_cons_self
  have hn : d ≠ 'n' := fun h => absurd (h ▸ hd) (by decide)
  have hquote : d ≠ '"' := fun h => absurd (h ▸ hd) (by decide)
  -- The digits end where what follows begins.
  have hstop : rest.takeWhile Char.isDigit = [] ∧ rest.dropWhile Char.isDigit = rest := by
    cases rest with
    | nil => exact ⟨rfl, rfl⟩
    | cons c rest =>
        have hc := hrest c rfl
        have hneg : ¬ c.isDigit = true := by rw [hc]; exact Bool.false_ne_true
        exact ⟨List.takeWhile_cons_of_neg hneg, List.dropWhile_cons_of_neg hneg⟩
  have htake : (d :: ds ++ rest).takeWhile Char.isDigit = d :: ds := by
    rw [List.takeWhile_append_of_pos hds, hstop.1, List.append_nil]
  have hdrop : (d :: ds ++ rest).dropWhile Char.isDigit = rest := by
    rw [List.dropWhile_append_of_pos hds, hstop.2]
  rw [List.cons_append] at htake hdrop ⊢
  unfold scanScalar
  split
  · next h => exact absurd (List.cons.inj h).1 hn
  · next h => exact absurd (List.cons.inj h).1 hquote
  · dsimp only
    rw [htake, hdrop]
    rfl

/-- A value is read back. -/
theorem scanScalar_encodeScalar (v : Scalar) {rest : List Char} (hrest : NoDigit rest) :
    scanScalar (encodeScalar v ++ rest) = some (v, rest) := by
  cases v with
  | null =>
      rfl
  | num n =>
      have hdigits : ∀ c ∈ Nat.toDigits 10 n, c.isDigit = true :=
        fun c hc => Nat.isDigit_of_mem_toDigits (by decide) (by decide) hc
      have hvalue : Nat.ofDigitChars 10 (Nat.toDigits 10 n) 0 = n :=
        Nat.ofDigitChars_toDigits (by decide) (by decide)
      rw [encodeScalar]
      rcases List.exists_cons_of_ne_nil (Nat.toDigits_ne_nil (n := n) (b := 10)) with
        ⟨d, ds, hcons⟩
      rw [hcons] at hdigits hvalue ⊢
      rw [scanScalar_digits hdigits hrest, hvalue]
  | str s =>
      rw [encodeScalar, List.cons_append, scanScalar, scanString_quoted]
      rfl

/-- A field is read back. -/
theorem scanField_encodeField (field : List Char × Scalar) {rest : List Char}
    (hrest : NoDigit rest) : scanField (encodeField field ++ rest) = some (field, rest) := by
  unfold encodeField
  rw [List.cons_append, List.cons_append, List.append_assoc, List.cons_append, scanField,
    scanString_quoted]
  change (scanScalar (encodeScalar field.2 ++ rest)).map (fun p => ((field.1, p.1), p.2)) = _
  rw [scanScalar_encodeScalar field.2 hrest]
  rfl

/-! ### Objects -/

theorem encodeFields_cons {field : List Char × Scalar} {fields : List (List Char × Scalar)}
    (h : fields ≠ []) :
    encodeFields (field :: fields) = encodeField field ++ ',' :: encodeFields fields := by
  cases fields with
  | nil => exact absurd rfl h
  | cons next fields => rfl

/-- There is a character for every field. -/
theorem length_le_encodeFields (fields : List (List Char × Scalar)) :
    fields.length ≤ (encodeFields fields).length := by
  induction fields with
  | nil =>
      exact Nat.zero_le _
  | cons field fields ih =>
      by_cases h : fields = []
      · rw [h]
        exact Nat.succ_le_succ (Nat.zero_le _)
      · rw [encodeFields_cons h, List.length_append, List.length_cons, List.length_cons]
        omega

/-- The fields are read back with fuel for each. -/
theorem scanFields_encodeFields {fields : List (List Char × Scalar)} (hne : fields ≠ [])
    {fuel : Nat} (hfuel : fields.length ≤ fuel) :
    scanFields fuel (encodeFields fields) = some fields := by
  induction fields generalizing fuel with
  | nil =>
      exact absurd rfl hne
  | cons field fields ih =>
      cases fuel with
      | zero =>
          exact absurd hfuel (Nat.not_succ_le_zero _)
      | succ fuel =>
          by_cases h : fields = []
          · rw [h, encodeFields, scanFields,
              scanField_encodeField field (noDigit_cons (by decide) [])]
            rfl
          · have hcomma := noDigit_cons (c := ',') (by decide) (encodeFields fields)
            rw [encodeFields_cons h, scanFields, scanField_encodeField field hcomma]
            change (scanFields fuel (encodeFields fields)).map (fun fields => field :: fields) = _
            rw [ih h (Nat.le_of_succ_le_succ hfuel)]
            rfl

/-- An object is read back. -/
theorem decode_encode (fields : List (List Char × Scalar)) :
    decode (encode fields) = some fields := by
  cases fields with
  | nil =>
      rfl
  | cons field fields =>
      have hscan := scanFields_encodeFields (List.cons_ne_nil field fields)
        (length_le_encodeFields (field :: fields))
      -- The text of a field starts with a quote.
      have hstart : ∃ rest, encodeFields (field :: fields) = '"' :: rest := by
        cases fields with
        | nil => exact ⟨_, rfl⟩
        | cons next fields => exact ⟨_, rfl⟩
      rcases hstart with ⟨rest, hrest⟩
      rw [hrest] at hscan
      rw [encode, hrest, decode, hscan]
      exact fun h => absurd (List.cons.inj h).1 (by decide)

/-! ### Control characters -/

/-- A text without control characters. -/
def Printable (cs : List Char) : Prop := ∀ c ∈ cs, 32 ≤ c.toNat

theorem Printable.append {cs cs' : List Char} (h : Printable cs) (h' : Printable cs') :
    Printable (cs ++ cs') :=
  fun c hc => (List.mem_append.mp hc).elim (h c) (h' c)

theorem Printable.cons {c : Char} {cs : List Char} (hc : 32 ≤ c.toNat) (h : Printable cs) :
    Printable (c :: cs) :=
  fun d hd => (List.mem_cons.mp hd).elim (fun e => e ▸ hc) (h d)

theorem printable_nil : Printable [] := fun _ h => absurd h List.not_mem_nil

theorem printable_digitChar : ∀ n < 16, 32 ≤ n.digitChar.toNat := by
  decide

/-- No character stays a control character. -/
theorem printable_escapeChar (c : Char) : Printable (escapeChar c) := by
  cases hshort : shortEscapes.lookup c with
  | some letter =>
      rcases unescape_of_short hshort with ⟨_, _, hletter⟩
      rw [escapeChar_of_short hshort]
      exact .cons (by decide) (.cons hletter printable_nil)
  | none =>
      by_cases hcontrol : c.toNat < 32
      · rw [escapeChar_of_control hshort hcontrol]
        have hhigh := printable_digitChar (c.toNat / 16) (by omega)
        have hlow := printable_digitChar (c.toNat % 16) (Nat.mod_lt _ (by decide))
        exact .cons (by decide) (.cons (by decide) (.cons (by decide) (.cons (by decide)
          (.cons hhigh (.cons hlow printable_nil)))))
      · rw [escapeChar_of_plain hshort hcontrol]
        exact .cons (Nat.le_of_not_lt hcontrol) printable_nil

theorem printable_quoted (s : List Char) : Printable (quoted s) := by
  refine .append (fun c hc => ?_) (.cons (by decide) printable_nil)
  rcases List.mem_flatMap.mp hc with ⟨d, _, hd⟩
  exact printable_escapeChar d c hd

theorem printable_encodeScalar (v : Scalar) : Printable (encodeScalar v) := by
  cases v with
  | null =>
      exact .cons (by decide) (.cons (by decide) (.cons (by decide) (.cons (by decide)
        printable_nil)))
  | num n =>
      intro c hc
      have hdigit : c.isDigit = true := Nat.isDigit_of_mem_toDigits (by decide) (by decide) hc
      exact Nat.le_trans (by decide) (Char.isDigit_iff_toNat.mp hdigit).1
  | str s =>
      exact .cons (by decide) (printable_quoted s)

theorem printable_encodeField (field : List Char × Scalar) : Printable (encodeField field) :=
  .append (.cons (by decide) (printable_quoted field.1))
    (.cons (by decide) (printable_encodeScalar field.2))

/-- There is no control character in the text of an object. -/
theorem printable_encode (fields : List (List Char × Scalar)) : Printable (encode fields) := by
  refine .cons (by decide) ?_
  induction fields with
  | nil =>
      exact .cons (by decide) printable_nil
  | cons field fields ih =>
      by_cases h : fields = []
      · rw [h]
        exact (printable_encodeField field).append (.cons (by decide) printable_nil)
      · rw [encodeFields_cons h]
        exact (printable_encodeField field).append (.cons (by decide) ih)

end FlatJson
