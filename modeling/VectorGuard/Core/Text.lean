import Mathlib.Data.List.Infix

/-!
# Strings as Bytes

The few string operations of the standard library that the code relies on.
A string is UTF-8 by construction, in Rust and here, so a string operation is
an operation on the bytes and only decoding can fail.

Every place that decodes kernel bytes falls back to the same text on invalid
UTF-8, `fromUtf8OrInvalid`.

## Main definitions

* `bytes`: The UTF-8 bytes of a string.
* `startsWith`, `endsWith`: `str::starts_with` and `str::ends_with` with a string pattern.
* `fromUtf8`: `str::from_utf8`.
* `fromUtf8OrInvalid`: Decoding with the fallback text.
* `trim`: `str::trim`.
* `splitWhitespace`, `splitOnce`, `trimMatches`, `containsStr`, `parseU32`: The
  string functions the log adapters take lines apart with.
* `lines`, `joinLines`: `str::lines` and `join` with a newline.

## Theorems

* `fromUtf8_bytes`: Decoding the bytes of a string gives the string.
* `bytes_of_fromUtf8`: What is decoded has these bytes.
-/

namespace VectorGuard

/-- The UTF-8 bytes of a string. -/
def bytes (s : String) : List UInt8 :=
  s.toByteArray.data.toList

/-- `str::starts_with`. -/
def startsWith (s p : String) : Bool :=
  (bytes p).isPrefixOf (bytes s)

/-- `str::ends_with`. -/
def endsWith (s p : String) : Bool :=
  (bytes p).isSuffixOf (bytes s)

/-- `str::from_utf8`, without the error. -/
def fromUtf8 (bs : List UInt8) : Option String :=
  String.fromUTF8? (ByteArray.mk bs.toArray)

/-- `str::from_utf8(..).unwrap_or("<invalid>")`. -/
def fromUtf8OrInvalid (bs : List UInt8) : String :=
  (fromUtf8 bs).getD "<invalid>"

/-- `char::is_whitespace`, the Unicode `White_Space` property. -/
def isWhitespace (c : Char) : Bool :=
  let n := c.toNat
  (9 ≤ n && n ≤ 13) || n == 0x20 || n == 0x85 || n == 0xA0 || n == 0x1680 ||
    (0x2000 ≤ n && n ≤ 0x200A) || n == 0x2028 || n == 0x2029 || n == 0x202F || n == 0x205F ||
    n == 0x3000

/-- `str::trim`. -/
def trim (s : String) : String :=
  String.ofList ((s.toList.dropWhile isWhitespace).reverse.dropWhile isWhitespace).reverse

/-- `str::split_whitespace`. -/
def splitWhitespace (s : String) : List String :=
  ((s.toList.splitOnP isWhitespace).filter (fun w => !w.isEmpty)).map String.ofList

/-- `str::split_once` with a character. -/
def splitOnce (c : Char) (s : String) : Option (String × String) :=
  match s.toList.dropWhile (fun x => x != c) with
  | [] => none
  | _ :: rest => some (String.ofList (s.toList.takeWhile (fun x => x != c)), String.ofList rest)

/-- `str::trim_matches` with a character. -/
def trimMatches (c : Char) (s : String) : String :=
  let front := s.toList.dropWhile (fun x => x == c)
  String.ofList (front.reverse.dropWhile (fun x => x == c)).reverse

/-- A line without the carriage return at its end. -/
def stripReturn (line : List Char) : List Char :=
  if line.getLast? = some '\r' then line.dropLast else line

/-- `str::lines`: a last line that is empty does not count, and only a line that
    a newline closes loses its carriage return. -/
def lines (s : String) : List String :=
  let pieces := s.toList.splitOn '\n'
  let last := pieces.getLast?.getD []
  ((pieces.dropLast.map stripReturn) ++ (if last.isEmpty then [] else [last])).map String.ofList

/-- `[String]::join` with a newline. -/
def joinLines (ls : List String) : String :=
  String.ofList (['\n'].intercalate (ls.map String.toList))

/-- `str::contains` with a string pattern. -/
def containsStr (s p : String) : Bool :=
  s.toList.tails.any (fun t => p.toList.isPrefixOf t)

/-- `str::parse::<u32>`: an optional plus sign and at least one digit. -/
def parseU32 (s : String) : Option UInt32 :=
  let digits := match s.toList with
    | '+' :: rest => rest
    | cs => cs
  if digits.isEmpty || !digits.all Char.isDigit then none
  else
    let n := digits.foldl (fun acc c => acc * 10 + (c.toNat - '0'.toNat)) 0
    if n < UInt32.size then some (UInt32.ofNat n) else none

theorem fromUtf8_bytes (s : String) : fromUtf8 (bytes s) = some s := by
  have hbytes : ByteArray.mk (bytes s).toArray = s.toByteArray := by
    unfold bytes
    rw [Array.toArray_toList]
  unfold fromUtf8
  rw [hbytes]
  unfold String.fromUTF8?
  rw [dif_pos s.isValidUTF8]
  rfl

theorem bytes_of_fromUtf8 {bs : List UInt8} {s : String} (h : fromUtf8 bs = some s) :
    bytes s = bs := by
  unfold fromUtf8 String.fromUTF8? at h
  split at h
  · rw [Option.some.injEq] at h
    subst h
    rfl
  · exact absurd h (by simp only [reduceCtorEq, not_false_eq_true])

theorem fromUtf8OrInvalid_bytes (s : String) : fromUtf8OrInvalid (bytes s) = s := by
  unfold fromUtf8OrInvalid
  rw [fromUtf8_bytes, Option.getD_some]

end VectorGuard
