import VectorGuard.Core.Approval
import VectorGuard.Lib.FileNames
import VectorGuard.Theory.TextLines

/-!
# Staged Names

What the names of staged files are, and where they are.

The name of a proposal is made of a clock reading and a rule name whose
characters are replaced by dashes where a path could take them for something
else. So whatever the rule is called, the name is one component of a path, and
joined to a directory it leads to a child of it.

The extension of a name is looked for in its bytes and its stem in its
characters. They come apart at the same dot, because no byte of a longer
encoding is an ASCII character.

## Theorems

* `resolve_joinPath`: A name joined to a directory leads to a child of it.
* `isName_pending`, `isName_approved`: The names of staged files.
* `extension_append`, `fileStem_append`, `eq_of_extension`: Taking a name apart.
-/

namespace VectorGuard

open FileTree

/-! ### ASCII bytes -/

theorem mem_utf8EncodeChar {c : Char} {b : UInt8} (hb : b.toNat < 128)
    (h : b ∈ String.utf8EncodeChar c) : c.toNat = b.toNat := by
  unfold String.utf8EncodeChar at h
  simp only at h
  split at h
  · next hc =>
      rw [List.mem_singleton] at h
      rw [h, UInt8.toNat_ofNat']
      have hval : c.toNat = c.val.toNat := rfl
      rw [hval]
      exact (Nat.mod_eq_of_lt (by omega)).symm
  · -- Every byte of a longer encoding has the highest bit set.
    split at h
    · simp only [List.mem_cons, List.not_mem_nil, or_false] at h
      rcases h with rfl | rfl <;> simp only [UInt8.toNat_ofNat'] at hb <;> omega
    · split at h
      · simp only [List.mem_cons, List.not_mem_nil, or_false] at h
        rcases h with rfl | rfl | rfl <;> simp only [UInt8.toNat_ofNat'] at hb <;> omega
      · simp only [List.mem_cons, List.not_mem_nil, or_false] at h
        rcases h with rfl | rfl | rfl | rfl <;> simp only [UInt8.toNat_ofNat'] at hb <;> omega

theorem bytes_append (s t : String) : bytes (s ++ t) = bytes s ++ bytes t := by
  unfold bytes
  rw [String.toByteArray_append, ByteArray.data_append, Array.toList_append]

theorem bytes_inj {s t : String} (h : bytes s = bytes t) : s = t :=
  String.toByteArray_inj.mp (ByteArray.ext (Array.toList_inj.mp h))

theorem bytes_eq_flatMap (s : String) : bytes s = s.toList.flatMap String.utf8EncodeChar := by
  rcases s.exists_eq_ofList with ⟨cs, rfl⟩
  unfold bytes
  rw [String.toByteArray_ofList, String.toList_ofList]
  unfold List.utf8Encode
  exact List.toList_data_toByteArray

/-- A byte that is an ASCII character is that character of the string. -/
theorem mem_toList_of_mem_bytes {s : String} {b : UInt8} {c : Char} (hc : c.toNat = b.toNat)
    (hb : b.toNat < 128) (h : b ∈ bytes s) : c ∈ s.toList := by
  rw [bytes_eq_flatMap, List.mem_flatMap] at h
  rcases h with ⟨c', hmem, hbyte⟩
  have hsame : c' = c := Char.toNat_inj.mp ((mem_utf8EncodeChar hb hbyte).trans hc.symm)
  exact hsame ▸ hmem

/-! ### Joining paths -/

theorem not_startsWith_slash {name : String} (h : '/' ∉ name.toList) :
    startsWith name "/" = false := by
  have hslash : bytes "/" = [47] := by decide
  unfold startsWith
  rw [hslash]
  cases hbytes : bytes name with
  | nil => rfl
  | cons b rest =>
      rw [List.isPrefixOf_cons_cons, List.isPrefixOf_nil_left, Bool.and_true, beq_eq_false_iff_ne]
      intro heq
      refine h (mem_toList_of_mem_bytes (b := 47) rfl (by decide) ?_)
      rw [hbytes, heq]
      exact List.mem_cons_self

theorem eq_append_of_endsWith_slash {dir : String} (h : endsWith dir "/" = true) :
    ∃ dir', dir = dir' ++ "/" := by
  have hslash : bytes "/" = [47] := by decide
  unfold endsWith at h
  rw [hslash, List.isSuffixOf_iff_suffix] at h
  rcases dir.exists_eq_ofList with ⟨cs, rfl⟩
  rcases List.eq_nil_or_concat cs with rfl | ⟨init, c, rfl⟩
  · exact absurd (List.suffix_nil.mp h) (by simp)
  · -- The last byte is in the encoding of the last character.
    have hlast : (47 : UInt8) ∈ String.utf8EncodeChar c := by
      rw [bytes_eq_flatMap, String.toList_ofList, List.concat_eq_append, List.flatMap_append,
        List.flatMap_singleton] at h
      rcases h with ⟨front, hfront⟩
      have hgetLast := congrArg List.getLast? hfront
      rw [List.getLast?_concat, List.getLast?_append_of_ne_nil _ String.utf8EncodeChar_ne_nil]
        at hgetLast
      exact List.mem_of_getLast? hgetLast.symm
    have hc : c = '/' := Char.toNat_inj.mp (mem_utf8EncodeChar (by decide) hlast)
    exact ⟨String.ofList init, by rw [hc, List.concat_eq_append, String.ofList_append]⟩

/-- A name joined to a directory is looked for there. -/
theorem resolve_joinPath (fs : FileTree) (dir : String) {name : String} (hname : IsName name) :
    fs.resolve (joinPath dir name) =
      (fs.place dir).bind (fun q => if fs.entry q = some .dir then some (q ++ [name]) else none) := by
  have hwalk : (fun q => if fs.entry q = some .dir then some (q ++ [name]) else none) =
      fun q => fs.walk q [name] := funext (fun q => (fs.walk_isName q hname).symm)
  unfold joinPath
  rw [hwalk, not_startsWith_slash hname.slash, Bool.false_or]
  by_cases hempty : dir = ""
  · -- A name that is joined to nothing is in the working directory.
    rw [hempty]
    exact fs.resolve_name hname
  · rw [fs.place_of_ne_empty hempty, String.isEmpty_eq_false_iff.mpr hempty, if_neg (by simp)]
    by_cases hend : endsWith dir "/" = true
    · rcases eq_append_of_endsWith_slash hend with ⟨dir', rfl⟩
      rw [if_pos hend]
      exact fs.resolve_slash_child hname
    · rw [if_neg hend]
      exact fs.resolve_child hempty hname

theorem resolve_joinPath_of_dir {fs : FileTree} {dir name : String} {path : Path}
    (hname : IsName name) (hpath : fs.place dir = some path) (hdir : fs.entry path = some .dir) :
    fs.resolve (joinPath dir name) = some (path ++ [name]) := by
  rw [resolve_joinPath fs dir hname, hpath, Option.bind_some, if_pos hdir]

theorem eq_child_of_resolve {fs : FileTree} {dir name : String} {q : Path} (hname : IsName name)
    (h : fs.resolve (joinPath dir name) = some q) :
    ∃ path, fs.place dir = some path ∧ fs.entry path = some .dir ∧ q = path ++ [name] := by
  rw [resolve_joinPath fs dir hname] at h
  rcases Option.bind_eq_some_iff.mp h with ⟨path, hpath, hq⟩
  split at hq
  · next hdir => exact ⟨path, hpath, hdir, (Option.some.inj hq).symm⟩
  · exact absurd hq (by simp)

/-! ### The names of staged files -/

theorem mem_sanitize {s : String} {c : Char} (h : c ∈ (sanitize s).toList) : c ≠ '/' := by
  unfold sanitize at h
  simp only at h
  split at h
  · intro hc
    rw [hc] at h
    exact absurd h (by decide)
  · rw [String.toList_ofList, List.mem_map] at h
    rcases h with ⟨c', _, rfl⟩
    split
    · next hkept =>
        intro hc
        rw [hc] at hkept
        exact absurd hkept (by decide)
    · decide

theorem not_mem_makeId (now : Nat) (ruleName : String) : '/' ∉ (makeId now ruleName).toList := by
  unfold makeId
  rw [String.toList_append, String.toList_append, List.mem_append, List.mem_append]
  rintro ((hdigit | hdash) | hname)
  · have hdigits : (toString now).toList = Nat.toDigits 10 now := String.toList_ofList
    rw [hdigits] at hdigit
    exact absurd (Nat.isDigit_of_mem_toDigits (by decide) (by decide) hdigit) (by decide)
  · exact absurd hdash (by decide)
  · exact mem_sanitize hname rfl

theorem append_cancel_right {s t u : String} (h : s ++ u = t ++ u) : s = t := by
  have hchars := congrArg String.toList h
  rw [String.toList_append, String.toList_append] at hchars
  exact String.toList_inj.mp (List.append_cancel_right hchars)

theorem append_cancel_left {s t u : String} (h : u ++ s = u ++ t) : s = t := by
  have hchars := congrArg String.toList h
  rw [String.toList_append, String.toList_append] at hchars
  exact String.toList_inj.mp (List.append_cancel_left hchars)

/-- A name with an extension that is no dot. -/
theorem isName_toml {s : String} (h : '/' ∉ s.toList) : IsName (s ++ ".toml") := by
  have hlength : (s ++ ".toml").length = s.length + 5 := by
    rw [String.length_append]
    rfl
  have hne : ∀ t : String, t.length < 5 → s ++ ".toml" ≠ t := by
    intro t ht heq
    rw [heq] at hlength
    omega
  refine ⟨?_, hne "" (by decide), hne "." (by decide), hne ".." (by decide)⟩
  rw [String.toList_append, List.mem_append]
  rintro (hs | htoml)
  · exact h hs
  · exact absurd htoml (by decide)

theorem isName_pending (now : Nat) (ruleName : String) :
    IsName (makeId now ruleName ++ ".toml") :=
  isName_toml (not_mem_makeId now ruleName)

/-- The name that approving gives a file. -/
theorem isName_approved_of_noSlash {id : String} (h : '/' ∉ id.toList) :
    IsName ("ai-approved-" ++ id ++ ".toml") := by
  refine isName_toml ?_
  rw [String.toList_append, List.mem_append]
  rintro (hpre | hid)
  · exact absurd hpre (by decide)
  · exact h hid

theorem isName_approved (now : Nat) (ruleName : String) :
    IsName ("ai-approved-" ++ makeId now ruleName ++ ".toml") :=
  isName_approved_of_noSlash (not_mem_makeId now ruleName)

/-! ### Stems and extensions -/

/-- Without a dot in a string no byte of it is one. -/
theorem ne_dot_of_mem_bytes {t : String} (h : '.' ∉ t.toList) :
    ∀ b ∈ (bytes t).reverse, (b != 46) = true := by
  intro b hb
  rw [bne_iff_ne]
  intro heq
  rw [List.mem_reverse, heq] at hb
  exact h (mem_toList_of_mem_bytes rfl (by decide) hb)

/-- What stands behind the last dot is the extension. -/
theorem extension_append {s t : String} {content : Option String} (hs : s ≠ "")
    (ht : '.' ∉ t.toList) :
    DirEntry.extension ⟨bytes (s ++ "." ++ t), content⟩ = some (bytes t) := by
  have hdot : bytes "." = [46] := by decide
  have hbytes : (bytes (s ++ "." ++ t)).reverse = (bytes t).reverse ++ 46 :: (bytes s).reverse := by
    rw [bytes_append, bytes_append, hdot]
    simp
  have hall := ne_dot_of_mem_bytes ht
  have hne : (bytes s).reverse ≠ [] := by
    intro hnil
    exact hs (bytes_inj (List.reverse_eq_nil_iff.mp hnil))
  unfold DirEntry.extension
  simp only
  rw [hbytes, List.dropWhile_append_of_pos hall, List.takeWhile_append_of_pos hall]
  cases hrev : (bytes s).reverse with
  | nil => exact absurd hrev hne
  | cons b rest =>
      rw [List.dropWhile_cons_of_neg (by decide), List.takeWhile_cons_of_neg (by decide),
        List.append_nil, List.reverse_reverse]

theorem fileStem_append {s t : String} (hs : s ≠ "") (ht : '.' ∉ t.toList) :
    fileStem (s ++ "." ++ t) = s := by
  have hchars : (s ++ "." ++ t).toList.reverse = t.toList.reverse ++ '.' :: s.toList.reverse := by
    rw [String.toList_append, String.toList_append]
    have hdot : ".".toList = ['.'] := rfl
    rw [hdot]
    simp
  have hall : ∀ c ∈ t.toList.reverse, (c != '.') = true := by
    intro c hc
    rw [bne_iff_ne]
    intro heq
    rw [List.mem_reverse, heq] at hc
    exact ht hc
  unfold fileStem
  rw [hchars, List.dropWhile_append_of_pos hall]
  cases hrev : s.toList.reverse with
  | nil => exact absurd (String.toList_inj.mp (List.reverse_eq_nil_iff.mp hrev)) hs
  | cons c rest =>
      rw [List.dropWhile_cons_of_neg (by decide)]
      simp only
      rw [← hrev, List.reverse_reverse, String.ofList_toList]

/-- A name without a dot, or what stands before and behind its last one. -/
theorem dot_cases (name : String) :
    '.' ∉ name.toList ∨ ∃ s t, name = s ++ "." ++ t ∧ '.' ∉ t.toList := by
  by_cases hmem : '.' ∈ name.toList
  · rcases List.eq_append_cons_of_mem (List.mem_reverse.mpr hmem) with ⟨back, front, hsplit, hback⟩
    refine .inr ⟨String.ofList front.reverse, String.ofList back.reverse, ?_, ?_⟩
    · have hchars := congrArg List.reverse hsplit
      rw [List.reverse_reverse, List.reverse_append, List.reverse_cons] at hchars
      have hdot : "." = String.ofList ['.'] := rfl
      rw [hdot, ← String.ofList_append, ← String.ofList_append, ← hchars, String.ofList_toList]
    · rw [String.toList_ofList, List.mem_reverse]
      exact hback
  · exact .inl hmem

/-- A name with the extension of a rule file is its stem with that extension. -/
theorem eq_of_extension {name : String} {content : Option String}
    (h : DirEntry.extension ⟨bytes name, content⟩ = some (bytes "toml")) :
    name = fileStem name ++ ".toml" := by
  rcases dot_cases name with hnone | ⟨s, t, rfl, ht⟩
  · -- Without a dot there is no extension.
    have hall := ne_dot_of_mem_bytes hnone
    unfold DirEntry.extension at h
    simp only at h
    rw [List.dropWhile_eq_nil_iff.mpr hall] at h
    exact absurd h (by simp)
  · by_cases hs : s = ""
    · -- Nor if the dot starts the name.
      have hall := ne_dot_of_mem_bytes ht
      have hbytes : (bytes ("" ++ "." ++ t)).reverse = (bytes t).reverse ++ [46] := by
        have hdot : bytes ("" ++ ".") = [46] := by decide
        rw [bytes_append, hdot, List.reverse_append]
        rfl
      unfold DirEntry.extension at h
      simp only at h
      rw [hs, hbytes, List.dropWhile_append_of_pos hall, List.dropWhile_cons_of_neg (by decide)] at h
      exact absurd h (by simp)
    · rw [extension_append hs ht] at h
      have htoml : t = "toml" := bytes_inj (Option.some.inj h)
      rw [fileStem_append hs ht, htoml, String.append_assoc]
      rfl

end VectorGuard
