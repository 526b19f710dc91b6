import VectorGuard.Core.Auditd
import VectorGuard.Theory.SourceNames
import VectorGuard.Theory.StagedNames

/-!
# Audit Records

What the audit log says about a process and what is decoded of it.

The kernel writes a string into a record in one of two ways. If all of its bytes are
printable, and none is a space or a quote, it stands between quotes. Otherwise it is
written in hexadecimal digits, without quotes. The decoder takes quotes off and knows
nothing of digits, so a name that is written in digits is decoded to the digits. Names
are chosen by whoever owns the process, and one space is enough.

Everything else of a record is decoded: the numbers, and which of the two strings is
the name.

## Main definitions

* `auditString`: How a string is written into a record.
* `AuditRecord`: What a record says.
* `AuditLine`: A line of the log that holds a record.
* `Decodes`: What is decoded is what the record says.

## Theorems

* `lookup_parseKv`: A field of a line is the last token with its key.
* `unquote_auditString`: What is decoded of a string.
* `decodes_iff`: When a record is decoded.
-/

namespace VectorGuard

/-! ### Strings in a record -/

/-- A byte that needs no digits: printable, and neither a space nor a quote. -/
def isPlainByte (b : UInt8) : Bool := 0x21 ≤ b && b ≤ 0x7e && b != 0x22

/-- The text of ASCII bytes. -/
def asciiText (bs : List UInt8) : String := String.ofList (bs.map Char.ofUInt8)

/-- An uppercase hexadecimal digit. -/
def hexDigit (n : UInt8) : UInt8 := if n < 10 then 48 + n else 55 + n

/-- Two digits for every byte. -/
def hexDigits (bs : List UInt8) : List UInt8 :=
  bs.flatMap (fun b => [hexDigit (b / 16), hexDigit (b % 16)])

/-- The bytes of a string as they stand in a record, but for the quotes. -/
def auditText (bs : List UInt8) : List UInt8 := if bs.all isPlainByte then bs else hexDigits bs

/-- A string in a record, `audit_log_untrustedstring` of the kernel. -/
def auditString (bs : List UInt8) : String :=
  if bs.all isPlainByte then "\"" ++ asciiText bs ++ "\"" else asciiText (hexDigits bs)

theorem isPlainByte_iff {b : UInt8} :
    isPlainByte b = true ↔ 33 ≤ b.toNat ∧ b.toNat ≤ 126 ∧ b.toNat ≠ 34 := by
  unfold isPlainByte
  rw [Bool.and_eq_true, Bool.and_eq_true, decide_eq_true_eq, decide_eq_true_eq, bne_iff_ne,
    UInt8.le_iff_toNat_le, UInt8.le_iff_toNat_le, ne_eq, ← UInt8.toNat_inj, and_assoc]
  rfl

theorem toNat_ofUInt8 (b : UInt8) : (Char.ofUInt8 b).toNat = b.toNat := rfl

/-- The bytes of an ASCII text. -/
theorem bytes_asciiText {bs : List UInt8} (h : ∀ b ∈ bs, isPlainByte b = true) :
    bytes (asciiText bs) = bs := by
  rw [bytes_eq_flatMap, asciiText, String.toList_ofList]
  induction bs with
  | nil => rfl
  | cons b bs ih =>
      have hb := (isPlainByte_iff.mp (h b List.mem_cons_self)).2.1
      have hencode : String.utf8EncodeChar (Char.ofUInt8 b) = [b] := by
        have hval : (Char.ofUInt8 b).val.toNat = b.toNat := rfl
        unfold String.utf8EncodeChar
        dsimp only
        rw [hval, if_pos (by omega), UInt8.ofNat_toNat]
      rw [List.map_cons, List.flatMap_cons, hencode,
        ih (fun b' hb' => h b' (List.mem_cons_of_mem b hb'))]
      rfl

/-- In the text of plain bytes there is neither white space nor a quote. -/
theorem of_mem_asciiText {bs : List UInt8} (h : ∀ b ∈ bs, isPlainByte b = true) {c : Char}
    (hc : c ∈ (asciiText bs).toList) : isWhitespace c = false ∧ c ≠ '"' := by
  rw [asciiText, String.toList_ofList] at hc
  rcases List.mem_map.mp hc with ⟨b, hb, rfl⟩
  rcases isPlainByte_iff.mp (h b hb) with ⟨hlow, hhigh, hquote⟩
  constructor
  · unfold isWhitespace
    rw [toNat_ofUInt8]
    simp
    omega
  · intro heq
    have hnat := congrArg Char.toNat heq
    rw [toNat_ofUInt8] at hnat
    exact hquote hnat

theorem isPlainByte_hexDigit {n : UInt8} (h : n.toNat < 16) : isPlainByte (hexDigit n) = true := by
  have hall : ∀ k : Fin 16, isPlainByte (hexDigit (UInt8.ofNat k.val)) = true := by decide
  have hn := hall ⟨n.toNat, h⟩
  rwa [UInt8.ofNat_toNat] at hn

theorem isPlainByte_of_mem_hexDigits {bs : List UInt8} {d : UInt8} (h : d ∈ hexDigits bs) :
    isPlainByte d = true := by
  rcases List.mem_flatMap.mp h with ⟨b, _, hd⟩
  rcases List.mem_cons.mp hd with rfl | hd
  · refine isPlainByte_hexDigit ?_
    rw [UInt8.toNat_div]
    exact Nat.div_lt_of_lt_mul b.toNat_lt
  · rw [List.mem_singleton.mp hd]
    refine isPlainByte_hexDigit ?_
    rw [UInt8.toNat_mod]
    exact Nat.mod_lt _ (by decide)

theorem isPlainByte_of_mem_auditText {bs : List UInt8} {b : UInt8} (h : b ∈ auditText bs) :
    isPlainByte b = true := by
  unfold auditText at h
  split at h
  · next hplain => exact List.all_eq_true.mp hplain b h
  · exact isPlainByte_of_mem_hexDigits h

/-- Nothing is trimmed where there is nothing to trim. -/
theorem trimMatches_of_notMem {c : Char} {s : String} (h : c ∉ s.toList) : trimMatches c s = s := by
  have hfront : ∀ cs : List Char, c ∉ cs → cs.dropWhile (fun x => x == c) = cs := by
    intro cs hcs
    refine List.dropWhile_eq_self_iff.mpr (fun hl heq => hcs ?_)
    rw [← beq_iff_eq.mp heq]
    exact List.getElem_mem hl
  unfold trimMatches
  dsimp only
  rw [hfront _ h, hfront _ (fun hmem => h (List.mem_reverse.mp hmem)), List.reverse_reverse,
    String.ofList_toList]

/-- The quotes are taken off, and nothing else is done. -/
theorem unquote_auditString (bs : List UInt8) :
    unquote (auditString bs) = asciiText (auditText bs) := by
  have hplain : '"' ∉ (asciiText (auditText bs)).toList := fun hmem =>
    (of_mem_asciiText (fun _ => isPlainByte_of_mem_auditText) hmem).2 rfl
  unfold auditString
  unfold auditText at hplain ⊢
  split
  · next hall =>
      rw [if_pos hall] at hplain
      rw [unquote_quoted]
      exact trimMatches_of_notMem hplain
  · next hnot =>
      rw [if_neg hnot] at hplain
      exact trimMatches_of_notMem hplain

/-- The bytes of what is decoded are those that were written if no digits were needed. -/
theorem auditText_eq_iff (bs : List UInt8) : auditText bs = bs ↔ bs.all isPlainByte = true := by
  constructor
  · intro h
    rw [← h]
    exact List.all_eq_true.mpr (fun _ => isPlainByte_of_mem_auditText)
  · intro h
    exact if_pos h

theorem auditText_eq_nil_iff (bs : List UInt8) : auditText bs = [] ↔ bs = [] := by
  unfold auditText
  split
  · rfl
  · cases bs with
    | nil => exact Iff.rfl
    | cons b bs =>
        exact ⟨fun h => absurd h (List.cons_ne_nil _ _), fun h => absurd h (List.cons_ne_nil _ _)⟩

/-! ### Tokens -/

/-- Words that are joined by spaces are split again. -/
theorem splitWhitespace_intercalate {words : List String}
    (h : ∀ w ∈ words, w ≠ "" ∧ ∀ c ∈ w.toList, isWhitespace c = false) :
    splitWhitespace (" ".intercalate words) = words := by
  have hspace : " ".toList = [' '] := rfl
  unfold splitWhitespace
  rw [String.toList_intercalate, hspace]
  induction words with
  | nil => rfl
  | cons w words ih =>
      rcases h w List.mem_cons_self with ⟨hne, hword⟩
      have hkept : (!w.toList.isEmpty) = true := by
        rw [Bool.not_eq_true', List.isEmpty_eq_false_iff, ne_eq, String.toList_eq_nil_iff]
        exact hne
      rw [List.map_cons]
      by_cases hwords : words = []
      · rw [hwords, List.map_nil, List.intercalate_singleton, List.splitOnP_eq_singleton hword,
          List.filter_singleton, hkept, cond_true, List.map_singleton, String.ofList_toList]
      · have hmap : words.map String.toList ≠ [] := fun hnil => hwords (List.map_eq_nil_iff.mp hnil)
        rw [List.intercalate_cons_of_ne_nil hmap, List.append_assoc, List.singleton_append,
          List.splitOnP_append_cons_of_forall_mem hword ' ' rfl,
          List.filter_cons_of_pos (p := fun w : List Char => !w.isEmpty) hkept, List.map_cons,
          String.ofList_toList, ih (fun w' hw' => h w' (List.mem_cons_of_mem w hw'))]

/-- A token of a key and a value. -/
def fieldToken (field : String × String) : String := field.1 ++ "=" ++ field.2

theorem splitOnce_fieldToken {field : String × String} (h : '=' ∉ field.1.toList) :
    splitOnce '=' (fieldToken field) = some field := by
  have hchars : (fieldToken field).toList = field.1.toList ++ '=' :: field.2.toList := by
    unfold fieldToken
    rw [String.toList_append, String.toList_append, List.append_assoc]
    rfl
  have hkey : ∀ c ∈ field.1.toList, (c != '=') = true :=
    fun c hc => bne_iff_ne.mpr (fun heq => h (heq ▸ hc))
  unfold splitOnce
  rw [hchars, List.dropWhile_append_of_pos hkey, List.takeWhile_append_of_pos hkey]
  simp

/-- The value of the last token with a key. -/
def lastValue (key : String) (tokens : List String) : Option String :=
  ((tokens.filterMap (splitOnce '=')).filter (fun field => field.1 == key)).getLast?.map Prod.snd

/-- A field of a line is the last token with its key. -/
theorem lookup_parseKv (line key : String) :
    (parseKv line).lookup key = lastValue key (splitWhitespace line) := by
  unfold parseKv lastValue
  generalize splitWhitespace line = tokens
  induction tokens using List.reverseRecOn with
  | nil => rfl
  | append_singleton tokens token ih =>
      rw [List.foldl_append, List.foldl_cons, List.foldl_nil, List.filterMap_append,
        List.filter_append]
      cases hsplit : splitOnce '=' token with
      | none =>
          rw [List.filterMap_cons_none hsplit, List.filterMap_nil, List.filter_nil, List.append_nil]
          exact ih
      | some field =>
          rw [List.filterMap_cons_some hsplit, List.filterMap_nil, List.filter_singleton]
          by_cases hkey : field.1 = key
          · rw [beq_iff_eq.mpr hkey, cond_true, List.getLast?_concat]
            subst hkey
            exact AList.lookup_insert _
          · rw [beq_eq_false_iff_ne.mpr hkey, cond_false, List.append_nil, ← ih]
            exact AList.lookup_insert_ne (Ne.symm hkey)

/-- A number is read as it is printed. -/
theorem parseU32_toString (n : UInt32) : parseU32 (toString n) = some n := by
  have hchars : (toString n).toList = Nat.toDigits 10 n.toNat := String.toList_ofList
  have hdigit : ∀ c ∈ Nat.toDigits 10 n.toNat, c.isDigit = true :=
    fun c hc => Nat.isDigit_of_mem_toDigits (by decide) (by decide) hc
  have hvalue : (Nat.toDigits 10 n.toNat).foldl (fun acc c => acc * 10 + (c.toNat - '0'.toNat)) 0
      = n.toNat := by
    have hten := Nat.ofDigitChars_ten_toDigits (n := n.toNat)
    rw [Nat.ofDigitChars_eq_foldl] at hten
    simpa only [Nat.mul_comm] using hten
  have hne := Nat.toDigits_ne_nil (n := n.toNat) (b := 10)
  unfold parseU32
  rw [hchars]
  generalize Nat.toDigits 10 n.toNat = digits at hdigit hvalue hne ⊢
  split
  · -- No digit is a plus sign.
    exact absurd (hdigit '+' List.mem_cons_self) (by decide)
  · dsimp only
    rw [hvalue, List.all_eq_true.mpr hdigit, List.isEmpty_eq_false_iff.mpr hne, if_pos n.toNat_lt,
      UInt32.ofNat_toNat]
    rfl

/-! ### Records -/

/-- What a record says of a system call and of the process that makes it. -/
structure AuditRecord where
  syscall : UInt32
  ppid : UInt32
  pid : UInt32
  uid : UInt32
  comm : List UInt8
  exe : List UInt8

/-- The keys of the fields that are decoded. -/
def auditKeys : List String := ["syscall", "ppid", "pid", "uid", "comm", "exe"]

/-- A token with one of these keys. -/
def isDecoded (token : String) : Bool :=
  (splitOnce '=' token).any (fun field => auditKeys.contains field.1)

namespace AuditRecord

variable (r : AuditRecord)

/-- The fields that are decoded, in the order in which they are written. -/
def fields : List (String × String) :=
  [ ("syscall", toString r.syscall), ("ppid", toString r.ppid), ("pid", toString r.pid),
    ("uid", toString r.uid), ("comm", auditString r.comm), ("exe", auditString r.exe) ]

/-- The name of the process, or the path of its executable if it has none. -/
def shown : List UInt8 := if r.comm = [] then r.exe else r.comm

end AuditRecord

/-- A line of the log that holds a record: the fields that are decoded, and others before,
    between and behind them. -/
structure AuditLine (r : AuditRecord) where
  tokens : List String
  decoded : tokens.filter isDecoded = r.fields.map fieldToken
  others : ∀ token ∈ tokens, isDecoded token = false →
    token ≠ "" ∧ ∀ c ∈ token.toList, isWhitespace c = false

def AuditLine.line {r : AuditRecord} (l : AuditLine r) : String := " ".intercalate l.tokens

/-- What is decoded is what the record says. -/
structure Decodes (r : AuditRecord) (ev : SourceEvent) : Prop where
  pid : ev.process.pid = r.pid
  ppid : ev.process.ppid = r.ppid
  uid : ev.process.uid = r.uid
  name : bytes ev.process.binary = r.shown

section Line

variable {r : AuditRecord} (l : AuditLine r)

/-- A test of the characters of a given text. -/
theorem not_isWhitespace_of_all {s : String}
    (h : s.toList.all (fun c => !isWhitespace c) = true) :
    ∀ c ∈ s.toList, isWhitespace c = false := by
  intro c hc
  have hclean := List.all_eq_true.mp h c hc
  rw [Bool.not_eq_true'] at hclean
  exact hclean

theorem not_isWhitespace_auditString {bs : List UInt8} :
    ∀ c ∈ (auditString bs).toList, isWhitespace c = false := by
  have hquote : ∀ c ∈ "\"".toList, isWhitespace c = false := not_isWhitespace_of_all (by decide)
  intro c hc
  unfold auditString at hc
  split at hc
  · next hplain =>
      rw [String.toList_append, String.toList_append] at hc
      rcases List.mem_append.mp hc with hc | hc
      · rcases List.mem_append.mp hc with hc | hc
        · exact hquote c hc
        · exact (of_mem_asciiText (List.all_eq_true.mp hplain) hc).1
      · exact hquote c hc
  · exact (of_mem_asciiText (fun _ => isPlainByte_of_mem_hexDigits) hc).1

theorem not_isWhitespace_toString (n : UInt32) :
    ∀ c ∈ (toString n).toList, isWhitespace c = false := by
  intro c hc
  have hchars : (toString n).toList = Nat.toDigits 10 n.toNat := String.toList_ofList
  rw [hchars] at hc
  have hdigit := Nat.isDigit_of_mem_toDigits (by decide) (by decide) hc
  rcases Char.isDigit_iff_toNat.mp hdigit with ⟨hlow, hhigh⟩
  have hzero : '0'.toNat = 48 := rfl
  have hnine : '9'.toNat = 57 := rfl
  unfold isWhitespace
  simp
  omega

/-- No field of a record has white space in it. -/
theorem clean_fieldToken {field : String × String} (h : field ∈ r.fields) :
    fieldToken field ≠ "" ∧ ∀ c ∈ (fieldToken field).toList, isWhitespace c = false := by
  have hequals : ∀ c ∈ "=".toList, isWhitespace c = false := not_isWhitespace_of_all (by decide)
  have hkeys : ∀ key ∈ auditKeys, key.toList.all (fun c => !isWhitespace c) = true := by decide
  have hkey : field.1 ∈ auditKeys := by
    have hmem := List.mem_map_of_mem (f := Prod.fst) h
    exact hmem
  -- The values are numbers, or texts that are quoted, or encoded if they have white space.
  have hvalue : ∀ c ∈ field.2.toList, isWhitespace c = false := by
    simp only [AuditRecord.fields, List.mem_cons, List.not_mem_nil, or_false] at h
    rcases h with rfl | rfl | rfl | rfl | rfl | rfl
    · exact not_isWhitespace_toString r.syscall
    · exact not_isWhitespace_toString r.ppid
    · exact not_isWhitespace_toString r.pid
    · exact not_isWhitespace_toString r.uid
    · exact not_isWhitespace_auditString
    · exact not_isWhitespace_auditString
  constructor
  · intro hempty
    have hchars := congrArg String.toList hempty
    unfold fieldToken at hchars
    rw [String.toList_append, String.toList_append] at hchars
    simp at hchars
  · intro c hc
    unfold fieldToken at hc
    rw [String.toList_append, String.toList_append] at hc
    rcases List.mem_append.mp hc with hc | hc
    · rcases List.mem_append.mp hc with hc | hc
      · exact not_isWhitespace_of_all (hkeys field.1 hkey) c hc
      · exact hequals c hc
    · exact hvalue c hc

/-- The tokens of a line are found again. -/
theorem splitWhitespace_line : splitWhitespace l.line = l.tokens := by
  refine splitWhitespace_intercalate (fun token htoken => ?_)
  cases hdecoded : isDecoded token with
  | false => exact l.others token htoken hdecoded
  | true =>
      have hmem : token ∈ l.tokens.filter isDecoded := List.mem_filter.mpr ⟨htoken, hdecoded⟩
      rw [l.decoded] at hmem
      rcases List.mem_map.mp hmem with ⟨field, hfield, rfl⟩
      exact clean_fieldToken hfield

/-- Tokens that are not decoded make no difference to the fields that are. -/
theorem lastValue_filter {key : String} (hkey : key ∈ auditKeys) (tokens : List String) :
    lastValue key (tokens.filter isDecoded) = lastValue key tokens := by
  unfold lastValue
  rw [List.filterMap_filter, List.filter_filterMap, List.filter_filterMap]
  congr 2
  refine List.filterMap_congr (fun token _ => ?_)
  cases hdecoded : isDecoded token with
  | true => rw [if_pos rfl]
  | false =>
      rw [if_neg Bool.false_ne_true]
      unfold isDecoded at hdecoded
      cases hsplit : splitOnce '=' token with
      | none => rfl
      | some field =>
          -- A key that is not decoded is another one.
          rw [hsplit, Option.any_some] at hdecoded
          have hne : (field.1 == key) = false := by
            rw [beq_eq_false_iff_ne]
            intro heq
            rw [heq, List.contains_iff_mem.mpr hkey] at hdecoded
            exact Bool.noConfusion hdecoded
          rw [Option.filter_none, Option.filter_some, hne, if_neg Bool.false_ne_true]

/-- The fields of a line are those of its record. -/
theorem lookup_line {key : String} (hkey : key ∈ auditKeys) : (parseKv l.line).lookup key
    = ((r.fields.filter (fun field => field.1 == key)).getLast?).map Prod.snd := by
  have hsplit : (r.fields.map fieldToken).filterMap (splitOnce '=') = r.fields := by
    rw [List.filterMap_map]
    refine (List.filterMap_congr (fun field hfield => ?_)).trans List.filterMap_some
    have hkeys : ∀ key ∈ auditKeys, '=' ∉ key.toList := by decide
    refine splitOnce_fieldToken (hkeys field.1 ?_)
    have hmem := List.mem_map_of_mem (f := Prod.fst) hfield
    exact hmem
  rw [lookup_parseKv, splitWhitespace_line, ← lastValue_filter hkey, l.decoded]
  unfold lastValue
  rw [hsplit]

theorem numField_line {key : String} {n default : UInt32} (hkey : key ∈ auditKeys)
    (hfield : ((r.fields.filter (fun field => field.1 == key)).getLast?).map Prod.snd
      = some (toString n)) : numField (parseKv l.line) key default = n := by
  unfold numField
  rw [lookup_line l hkey, hfield, Option.bind_some, parseU32_toString, Option.getD_some]

theorem textField_line {key : String} (bs : List UInt8) (hkey : key ∈ auditKeys)
    (hfield : ((r.fields.filter (fun field => field.1 == key)).getLast?).map Prod.snd
      = some (auditString bs)) :
    textField (parseKv l.line) key = asciiText (auditText bs) := by
  unfold textField
  rw [lookup_line l hkey, hfield, Option.map_some, Option.getD_some, unquote_auditString]

/-- The name of the process is decoded to what was written for it, but for the quotes. -/
theorem bytes_binary (id : UInt64) :
    bytes (parseAuditdSyscall id l.line).process.binary = auditText r.shown := by
  have hbytes : ∀ bs, bytes (asciiText (auditText bs)) = auditText bs :=
    fun bs => bytes_asciiText (fun _ => isPlainByte_of_mem_auditText)
  rw [parseAuditdSyscall_binary, textField_line l r.comm (by decide) rfl,
    textField_line l r.exe (by decide) rfl]
  unfold AuditRecord.shown
  by_cases hcomm : r.comm = []
  · have hempty : (asciiText (auditText [])).isEmpty = true := by decide
    rw [hcomm, if_pos hempty, if_pos rfl, hbytes]
  · -- What was written for a name is not empty.
    have hne : ¬ (asciiText (auditText r.comm)).isEmpty = true := by
      intro hempty
      have hnil := congrArg bytes (String.isEmpty_iff.mp hempty)
      rw [hbytes] at hnil
      exact hcomm ((auditText_eq_nil_iff r.comm).mp hnil)
    rw [if_neg hne, if_neg hcomm, hbytes]

end Line

/-- A record is decoded if and only if the name that is shown of the process consists of
    printable characters other than spaces and quotes. -/
theorem decodes_iff (r : AuditRecord) (l : AuditLine r) (id : UInt64) :
    Decodes r (parseAuditdSyscall id l.line) ↔ r.shown.all isPlainByte = true := by
  rw [← auditText_eq_iff, ← bytes_binary l id]
  constructor
  · intro h
    exact h.name
  · intro h
    rcases parseAuditdSyscall_numbers id l.line with ⟨hpid, hppid, huid⟩
    exact {
      pid := hpid.trans (numField_line l (by decide) rfl)
      ppid := hppid.trans (numField_line l (by decide) rfl)
      uid := huid.trans (numField_line l (by decide) rfl)
      name := h }

/-- A process that is called `nc -e`. -/
def spacedRecord : AuditRecord where
  syscall := 59
  ppid := 1
  pid := 7
  uid := 1000
  comm := bytes "nc -e"
  exe := bytes "/usr/bin/nc"

def spacedTokens : List String :=
  [ "type=SYSCALL", "msg=audit(1700000000.000:1):", "syscall=59", "success=yes", "ppid=1", "pid=7",
    "auid=1000", "uid=1000", "gid=1000", "comm=6E63202D65", "exe=\"/usr/bin/nc\"", "key=(null)" ]

def spacedLine : AuditLine spacedRecord where
  tokens := spacedTokens
  decoded := by decide
  others := by
    intro token htoken hother
    have hall : ∀ token ∈ spacedTokens,
        token ≠ "" ∧ token.toList.all (fun c => !isWhitespace c) = true := by decide
    exact ⟨(hall token htoken).1, not_isWhitespace_of_all (hall token htoken).2⟩

/-- Its name is decoded to digits. -/
theorem spacedRecord_not_decoded :
    ¬ ∀ (r : AuditRecord) (l : AuditLine r) (id : UInt64), (fromUtf8 r.comm).isSome →
      (fromUtf8 r.exe).isSome → Decodes r (parseAuditdSyscall id l.line) := by
  intro hall
  have hname := (hall spacedRecord spacedLine 0 (by decide) (by decide)).name
  rw [bytes_binary] at hname
  exact absurd hname (by decide)

end VectorGuard
