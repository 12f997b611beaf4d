import TapeMachine.Yaml.Document

/-! Documents of plain lines.

A document whose characters are plain is read as it was written, in blocks of whatever size. If it is made of
`Part`s, entries of single words and inner mappings of such entries, then what is read is the mapping of these
parts, each with the number of its line (`read_parts`). -/
namespace TapeMachine.Yaml

/-! ### Characters -/

/-- A line end, or a character of one byte that can be shown. -/
def IsPlain (c : Char) : Prop := c = '\n' ∨ (0x20 ≤ c.toNat ∧ c.toNat ≤ 0x7e)

instance (c : Char) : Decidable (IsPlain c) := inferInstanceAs (Decidable (_ ∨ _))

/-- The byte of a plain character. -/
def byte (c : Char) : UInt8 := c.toNat.toUInt8

namespace IsPlain
variable {c : Char}

theorem toNat_lt (h : IsPlain c) : c.toNat < 0x80 := by
  rcases h with rfl | h
  · decide
  · omega

theorem toNat_byte (h : IsPlain c) : (byte c).toNat = c.toNat := by
  have := h.toNat_lt
  rw [byte, Nat.toUInt8, UInt8.toNat_ofNat']
  exact Nat.mod_eq_of_lt (by omega)

theorem byte_lt (h : IsPlain c) : byte c < 0x80 := by
  rw [UInt8.lt_iff_toNat_lt, h.toNat_byte]
  exact h.toNat_lt

theorem encodeChar (h : IsPlain c) : Text.Utf8.encodeChar c = [byte c] := if_pos h.toNat_lt

theorem isAllowed (h : IsPlain c) : isAllowed c.toNat = true := by
  rcases h with rfl | h
  · rfl
  · simp [Yaml.isAllowed, h]

/-- The byte of a plain character is that character, whatever follows. -/
theorem narrow (h : IsPlain c) (rest : List UInt8) : narrow (byte c) rest = .character c 1 := by
  have hlt := h.toNat_lt
  have hwidth : width? (byte c) = some 1 := if_pos h.byte_lt
  have hsurrogate : ((0xd800 ≤ c.toNat && c.toNat ≤ 0xdfff) || 0x10ffff < c.toNat) = false := by
    have hlow : ¬ 0xd800 ≤ c.toNat := by omega
    have hhigh : ¬ 0x10ffff < c.toNat := by omega
    simp [hlow, hhigh]
  simp [Yaml.narrow, hwidth, leadBits, leastOf, h.toNat_byte, hsurrogate, found, h.isAllowed, Char.ofNat_toNat]

end IsPlain

theorem encode_plain {text : List Char} (h : ∀ c ∈ text, IsPlain c) : Text.Utf8.encode text = text.map byte := by
  induction text with
  | nil => rfl
  | cons c rest ih =>
    rw [Text.Utf8.encode, List.flatMap_cons, (h c (List.mem_cons_self ..)).encodeChar, List.map_cons]
    exact congrArg _ (ih fun d hd => h d (List.mem_cons_of_mem c hd))

theorem blockOf_plain {text : List Char} (h : ∀ c ∈ text, IsPlain c) {fuel : Nat} (hfuel : text.length ≤ fuel)
    (before : List Char) :
    blockOf .narrow fuel before (text.map byte) = .ok (text.reverse ++ before, none, []) := by
  induction text generalizing fuel before with
  | nil => cases fuel <;> rfl
  | cons c rest ih =>
    cases fuel with
    | zero => exact absurd hfuel (by simp)
    | succ fuel =>
      have hfirst : Encoding.find .narrow (byte c) (rest.map byte) = .character c 1 :=
        (h c (List.mem_cons_self ..)).narrow _
      have hrest := ih (fun d hd => h d (List.mem_cons_of_mem c hd)) (Nat.le_of_succ_le_succ hfuel) (c :: before)
      rw [List.map_cons, blockOf, hfirst]
      simpa using hrest

/-- Blocks do not matter to a plain text. -/
theorem scriptWithin_plain {text : List Char} (h : ∀ c ∈ text, IsPlain c) {fuel : Nat} (hfuel : text.length < fuel)
    (before : List Char) :
    scriptWithin .narrow fuel blockSize before (text.map byte) = ⟨before.reverse ++ text, none⟩ := by
  induction fuel generalizing text before with
  | zero => exact absurd hfuel (Nat.not_lt_zero _)
  | succ fuel ih =>
    have hblock := blockOf_plain (fun c hc => h c (List.mem_of_mem_take hc))
      (List.length_take_le blockSize text) before
    rw [scriptWithin, ← List.map_take, ← List.map_drop, hblock]
    simp only [List.nil_append]
    by_cases hend : text.length ≤ blockSize
    · have hlater : text.drop blockSize = [] := List.drop_eq_nil_of_le hend
      simp [hlater, List.take_of_length_le hend]
    · have hlater : ((text.drop blockSize).map byte).isEmpty = false := by
        simp only [List.isEmpty_map, List.isEmpty_eq_false_iff, ne_eq, List.drop_eq_nil_iff]
        exact hend
      have hshort : (text.drop blockSize).length < fuel := by
        have : 0 < blockSize := by decide
        rw [List.length_drop]
        omega
      rw [hlater, if_neg (by decide), ih (fun c hc => h c (List.mem_of_mem_drop hc)) hshort]
      simp [List.take_append_drop]

/-- A plain document is read as it was written. -/
theorem Script.ofBytes_plain {text : List Char} (h : ∀ c ∈ text, IsPlain c) :
    Script.ofBytes (Text.Utf8.encode text) = ⟨text, none⟩ := by
  rw [encode_plain h]
  -- The byte of a plain character begins no mark of the byte order.
  have hdetect : Encoding.detect (text.map byte) = (.narrow, 0) := by
    cases text with
    | nil => rfl
    | cons c rest =>
      have hlt := (h c (List.mem_cons_self ..)).byte_lt
      have hne {b : UInt8} (hb : ¬ b < 0x80) : (b == byte c) = false := by
        rw [beq_eq_false_iff_ne]
        rintro rfl
        exact hb hlt
      simp [Encoding.detect, List.isPrefixOf, hne]
  have hscript := scriptWithin_plain h (Nat.lt_succ_self text.length) []
  simpa [Script.ofBytes, hdetect] using hscript

namespace Lines

/-! ### Lines -/

theorem split?_cons (line : List Char) (c : Char) (rest : List Char) :
    split? line (c :: rest)
      = if c = '\n' then (split? [] rest).map (line.reverse :: ·) else split? (c :: line) rest := by
  cases line <;> rfl

theorem split?_line {line : List Char} (h : '\n' ∉ line) (before rest : List Char) :
    split? before (line ++ '\n' :: rest) = (split? [] rest).map ((before.reverse ++ line) :: ·) := by
  induction line generalizing before with
  | nil => rw [List.nil_append, split?_cons, if_pos rfl, List.append_nil]
  | cons c line ih =>
    have hc : c ≠ '\n' := fun heq => h (heq ▸ List.mem_cons_self ..)
    rw [List.cons_append, split?_cons, if_neg hc, ih fun hmem => h (List.mem_cons_of_mem c hmem)]
    simp

/-- Lines that are each ended by a line end. -/
def joined (lines : List (List Char)) : List Char := lines.flatMap (· ++ ['\n'])

theorem split?_joined {lines : List (List Char)} (h : ∀ line ∈ lines, '\n' ∉ line) :
    split? [] (joined lines) = some lines := by
  induction lines with
  | nil => rfl
  | cons line rest ih =>
    have hline := split?_line (h line (List.mem_cons_self ..)) [] (joined rest)
    rw [ih fun l hl => h l (List.mem_cons_of_mem line hl)] at hline
    simpa [joined] using hline

/-! ### Words and keys -/

/-- A character of a key or of a word. -/
def IsLetter (c : Char) : Prop := c.isAlphanum = true ∨ c = '_' ∨ c = '-'

theorem IsLetter.isPlain {c : Char} (h : IsLetter c) : IsPlain c := by
  rcases h with h | rfl | rfl
  · -- Capitals, small letters and digits are all between the blank and the tilde.
    have hrange {a b : Char} (ha : 0x20 ≤ a.toNat) (hb : b.toNat ≤ 0x7e) (hc : a.val ≤ c.val ∧ c.val ≤ b.val) :
        IsPlain c :=
      .inr ⟨Nat.le_trans ha (UInt32.le_iff_toNat_le.mp hc.1), Nat.le_trans (UInt32.le_iff_toNat_le.mp hc.2) hb⟩
    have hbetween {a b : Char} (hc : (decide (a.val ≤ c.val) && decide (c.val ≤ b.val)) = true) :
        a.val ≤ c.val ∧ c.val ≤ b.val := by
      rwa [Bool.and_eq_true, decide_eq_true_eq, decide_eq_true_eq] at hc
    have hcases : ((c.isUpper || c.isLower) || c.isDigit) = true := h
    rw [Bool.or_eq_true, Bool.or_eq_true] at hcases
    rcases hcases with (hupper | hlower) | hdigit
    · exact @hrange 'A' 'Z' (by decide) (by decide) (of_decide_eq_true hupper)
    · exact @hrange 'a' 'z' (by decide) (by decide) (hbetween hlower)
    · exact @hrange '0' '9' (by decide) (by decide) (hbetween hdigit)
  · exact .inr (by decide)
  · exact .inr (by decide)

theorem IsLetter.ne {c d : Char} (h : IsLetter c) (hd : d.isAlphanum = false ∧ d ≠ '_' ∧ d ≠ '-') : c ≠ d := by
  rintro rfl
  rcases h with h | h | h
  · rw [h] at hd
    cases hd.1
  · exact hd.2.1 h
  · exact hd.2.2 h

theorem isLetter_of_isWord {word : List Char} (h : isWord word = true) : word ≠ [] ∧ ∀ c ∈ word, IsLetter c := by
  have hall {s : List Char} (hs : (!s.isEmpty && s.all Char.isAlphanum) = true) :
      s ≠ [] ∧ ∀ c ∈ s, IsLetter c := by
    simp only [Bool.and_eq_true, Bool.not_eq_true', List.isEmpty_eq_false_iff, List.all_eq_true] at hs
    exact ⟨hs.1, fun c hc => .inl (hs.2 c hc)⟩
  unfold isWord at h
  split at h
  · refine ⟨List.cons_ne_nil _ _, fun c hc => ?_⟩
    rcases List.mem_cons.mp hc with rfl | hc
    · exact .inr (.inr rfl)
    · exact (hall h).2 c hc
  · exact hall h

theorem isLetter_of_isKey {key : List Char} (h : isKey key = true) : key ≠ [] ∧ ∀ c ∈ key, IsLetter c := by
  simp only [isKey, Bool.and_eq_true, Bool.not_eq_true', List.isEmpty_eq_false_iff, List.all_eq_true,
    Bool.or_eq_true, beq_iff_eq] at h
  refine ⟨h.1, fun c hc => ?_⟩
  rcases h.2 c hc with hlower | hline
  · have hcases : ((c.isUpper || c.isLower) || c.isDigit) = true := by simp [hlower]
    exact .inl hcases
  · exact .inr (.inl hline)

/-- The colon behind a key is the first one. -/
theorem atColon_key {key : List Char} (h : ∀ c ∈ key, IsLetter c) (rest : List Char) :
    atColon (key ++ ':' :: rest) = (key, ':' :: rest) := by
  have hkey : ∀ c ∈ key, (c != ':') = true := fun c hc => bne_iff_ne.mpr ((h c hc).ne (by decide))
  rw [atColon, List.takeWhile_append_of_pos hkey, List.dropWhile_append_of_pos hkey]
  simp

/-! ### Lines as they are written -/

namespace Line

def text : Line → List Char
  | .entry key value => key ++ ':' :: ' ' :: value
  | .opening key => key ++ [':']
  | .inner key value => ' ' :: ' ' :: ' ' :: ' ' :: (key ++ ':' :: ' ' :: value)

/-- Whether a line is one of a plain document: its words are, and its key is not too long for one. -/
def IsPlain : Line → Prop
  | .entry key value => isKey key = true ∧ key.length ≤ Lexer.keyLimit ∧ isWord value = true
  | .opening key => isKey key = true ∧ key.length ≤ Lexer.keyLimit
  | .inner key value => isWord key = true ∧ key.length ≤ Lexer.keyLimit ∧ isWord value = true

/-- A line whose key is at its front is not indented. -/
theorem classify?_key {key : List Char} (hkey : isKey key = true) (rest : List Char) :
    classify? (key ++ rest) = outer? (key ++ rest) := by
  obtain ⟨hne, hletters⟩ := isLetter_of_isKey hkey
  cases key with
  | nil => exact absurd rfl hne
  | cons c key =>
    have hc : c ≠ ' ' := (hletters c (List.mem_cons_self ..)).ne (by decide)
    unfold classify?
    split
    · next h =>
      rw [List.cons_append] at h
      exact absurd (List.cons.inj h).1 hc
    · rfl

theorem classify?_text {line : Line} (h : line.IsPlain) : classify? line.text = some line := by
  cases line with
  | entry key value =>
    obtain ⟨hkey, hlength, hvalue⟩ := h
    rw [text, classify?_key hkey, outer?, atColon_key (isLetter_of_isKey hkey).2]
    simp [hkey, hlength, hvalue]
  | opening key =>
    obtain ⟨hkey, hlength⟩ := h
    rw [text, classify?_key hkey, outer?, atColon_key (isLetter_of_isKey hkey).2]
    simp [hkey, hlength]
  | inner key value =>
    obtain ⟨hkey, hlength, hvalue⟩ := h
    rw [text, classify?, inner?, atColon_key (isLetter_of_isWord hkey).2]
    simp [hkey, hlength, hvalue]

/-- The characters of a line. -/
theorem mem_text {line : Line} (h : line.IsPlain) {c : Char} (hc : c ∈ line.text) :
    IsLetter c ∨ c = ':' ∨ c = ' ' := by
  cases line with
  | entry key value =>
    obtain ⟨hkey, -, hvalue⟩ := h
    simp only [text, List.mem_append, List.mem_cons] at hc
    rcases hc with hc | hc | hc | hc
    · exact .inl ((isLetter_of_isKey hkey).2 c hc)
    · exact .inr (.inl hc)
    · exact .inr (.inr hc)
    · exact .inl ((isLetter_of_isWord hvalue).2 c hc)
  | opening key =>
    simp only [text, List.mem_append, List.mem_singleton] at hc
    rcases hc with hc | hc
    · exact .inl ((isLetter_of_isKey h.1).2 c hc)
    · exact .inr (.inl hc)
  | inner key value =>
    obtain ⟨hkey, -, hvalue⟩ := h
    simp only [text, List.mem_append, List.mem_cons] at hc
    rcases hc with hc | hc | hc | hc | hc | hc | hc | hc
    · exact .inr (.inr hc)
    · exact .inr (.inr hc)
    · exact .inr (.inr hc)
    · exact .inr (.inr hc)
    · exact .inl ((isLetter_of_isWord hkey).2 c hc)
    · exact .inr (.inl hc)
    · exact .inr (.inr hc)
    · exact .inl ((isLetter_of_isWord hvalue).2 c hc)

end Line

/-! ### Parts -/

/-- An entry of a document: a word, or a mapping of words that is not empty. -/
inductive Part
  | entry (key value : List Char)
  | mapping (key : List Char) (first : List Char × List Char) (rest : List (List Char × List Char))

namespace Part

def innerLine (entry : List Char × List Char) : Line := .inner entry.1 entry.2

def lines : Part → List Line
  | .entry key value => [.entry key value]
  | .mapping key first rest => .opening key :: (first :: rest).map innerLine

/-- The nodes of inner entries, of which the first is in the line with the given number. -/
def innerNodes : Nat → List (List Char × List Char) → List (Node × Node)
  | _, [] => []
  | number, (key, value) :: rest => (word number key, word number value) :: innerNodes (number + 1) rest

/-- The nodes of a part whose first line has the given number. -/
def node (number : Nat) : Part → Node × Node
  | .entry key value => (word number key, word number value)
  | .mapping key first rest =>
    (word number key, .mapping (number + 1) "!!map" (innerNodes (number + 1) (first :: rest)))

def nodes : Nat → List Part → List (Node × Node)
  | _, [] => []
  | number, part :: rest => part.node number :: nodes (number + part.lines.length) rest

/-- The document of some parts. -/
def text (parts : List Part) : List Char := joined ((parts.flatMap lines).map Line.text)

/-- Whether parts make a plain document. -/
def ArePlain (parts : List Part) : Prop := ∀ part ∈ parts, ∀ line ∈ part.lines, line.IsPlain

theorem gather?_inner (entries : List (List Char × List Char)) {number : Nat} {lines : List Line}
    {behind : List (Node × Node)} (h : gather? (number + entries.length) lines = some ([], behind)) :
    gather? number (entries.map innerLine ++ lines) = some (innerNodes number entries, behind) := by
  induction entries generalizing number with
  | nil => exact h
  | cons entry rest ih =>
    have hnumber : number + 1 + rest.length = number + (entry :: rest).length := by
      rw [List.length_cons]
      omega
    rw [← hnumber] at h
    simp only [List.map_cons, List.cons_append, innerLine, gather?, ih h, innerNodes]

theorem gather?_lines (parts : List Part) (number : Nat) :
    gather? number (parts.flatMap lines) = some ([], nodes number parts) := by
  induction parts generalizing number with
  | nil => rfl
  | cons part rest ih =>
    rw [List.flatMap_cons, nodes]
    cases part with
    | entry key value =>
      simp only [lines, List.singleton_append, gather?, ih (number + 1)]
      rfl
    | mapping key first entries =>
      have hnumber : number + 1 + (first :: entries).length = number + (mapping key first entries).lines.length := by
        rw [lines, List.length_cons, List.length_cons, List.length_map, List.length_cons]
        omega
      have hinner := gather?_inner (first :: entries) (ih (number + 1 + (first :: entries).length))
      simp only [lines, List.cons_append, gather?, hinner, innerNodes, List.isEmpty_cons, Bool.false_eq_true,
        if_false]
      rw [hnumber]
      rfl

theorem mapM_classify? {lines : List Line} (h : ∀ line ∈ lines, line.IsPlain) :
    (lines.map Line.text).mapM classify? = some lines := by
  induction lines with
  | nil => rfl
  | cons line rest ih =>
    rw [List.map_cons, List.mapM_cons, Line.classify?_text (h line (List.mem_cons_self ..)),
      ih fun l hl => h l (List.mem_cons_of_mem line hl)]
    rfl

theorem ArePlain.line {parts : List Part} (h : ArePlain parts) {line : Line} (hline : line ∈ parts.flatMap lines) :
    line.IsPlain := by
  obtain ⟨part, hpart, hmem⟩ := List.mem_flatMap.mp hline
  exact h part hpart line hmem

theorem read?_text {part : Part} {parts : List Part} (h : ArePlain (part :: parts)) :
    read? (text (part :: parts)) = some (.mapping 1 "!!map" (nodes 1 (part :: parts))) := by
  have hbreaks : ∀ line ∈ ((part :: parts).flatMap lines).map Line.text, '\n' ∉ line := by
    intro line hline hbreak
    obtain ⟨line, hmem, rfl⟩ := List.mem_map.mp hline
    rcases Line.mem_text (h.line hmem) hbreak with hletter | hc | hc
    · exact hletter.ne (by decide) rfl
    · cases hc
    · cases hc
  rw [read?, text, split?_joined hbreaks, Option.bind_some, mapM_classify? fun line hline => h.line hline,
    Option.bind_some, gather?_lines]
  rfl

/-- A plain document has plain characters. -/
theorem isPlain_of_mem_text {parts : List Part} (h : ArePlain parts) {c : Char} (hc : c ∈ text parts) :
    IsPlain c := by
  obtain ⟨line, hline, hc⟩ := List.mem_flatMap.mp hc
  obtain ⟨line, hmem, rfl⟩ := List.mem_map.mp hline
  rcases List.mem_append.mp hc with hc | hc
  · rcases Line.mem_text (h.line hmem) hc with hletter | rfl | rfl
    · exact hletter.isPlain
    · exact .inr (by decide)
    · exact .inr (by decide)
  · exact .inl (List.mem_singleton.mp hc)

end Part
end Lines

/-- A document of parts is read as the mapping of its parts. -/
theorem read_parts {part : Lines.Part} {parts : List Lines.Part} (h : Lines.Part.ArePlain (part :: parts)) :
    ∃ size, read (Text.Utf8.encode (Lines.Part.text (part :: parts)))
      = .ok (some { root := .mapping 1 "!!map" (Lines.Part.nodes 1 (part :: parts)), size }) := by
  have hscript := Script.ofBytes_plain fun c (hc : c ∈ Lines.Part.text (part :: parts)) =>
    Lines.Part.isPlain_of_mem_text h hc
  refine ⟨(Lines.Part.text (part :: parts)).length, ?_⟩
  simp only [read, hscript, Lines.Part.read?_text h]

-- Read by all the rules of the format, and not line by line, such documents have the same nodes.
open Lines in
example : ∀ parts ∈ ([
      [.entry "tape_size".toList "30000".toList, .entry "eof".toList "unchanged".toList,
        .entry "turns".toList "-1".toList],
      [.entry "tape_size".toList ['3'], .mapping "cells".toList (['0'], "65".toList) [(['2'], ['7'])]],
      [.mapping "cells".toList (['1'], ['x']) [], .entry "pointer".toList ['0']]] : List (List Part)),
    (readScript ⟨Part.text parts, none⟩).toOption =
      some (some { root := .mapping 1 "!!map" (Part.nodes 1 parts), size := (Part.text parts).length }) := by
  decide +kernel

end TapeMachine.Yaml
