import TapeMachine.Options
import TapeMachine.Proofs.Decimals
import TapeMachine.Proofs.PlainDocument
import TapeMachine.Snapshot.Document

/-! The documents of snapshots.

The document of a snapshot is plain, a part for each field. Reading it takes each field once and has nothing to
complain about, so that it gives the snapshot back (`Snapshot.parse_encode`). The cells can be any finite map from
signed to unsigned words (`Snapshot.areStorable_ofEntries`); where it is empty the document has no part for them
(`Snapshot.texts_parts`). -/
namespace TapeMachine

namespace Yaml
open Text.Decimal

/-! ### Readings that go well -/

/-- A reading that has nothing to complain about and is inside of no alias. -/
structure Progress.IsClean (p : Progress) : Prop where
  complaints : p.complaints = []
  copies : p.copies = 0
  trouble : p.trouble = none

namespace Progress.IsClean
variable {p : Progress}

theorem visit (h : p.IsClean) : (p.visit false).IsClean := by
  have hfew : ({ p with visits := p.visits + 1, copies := p.copies + 0 } : Progress).isExcessive = false := by
    simp [isExcessive, h.copies]
  have heq : p.visit false = { p with visits := p.visits + 1, copies := p.copies + 0 } := by
    simp only [Progress.visit, Bool.false_eq_true, if_false, hfew]
  rw [heq]
  exact ⟨h.complaints, h.copies, h.trouble⟩

theorem failed (h : p.IsClean) : p.failed = false := by
  rw [Progress.failed, h.trouble]
  rfl

theorem trouble? (h : p.IsClean) : p.trouble? = none := by
  rw [Progress.trouble?, h.trouble, h.complaints]

end Progress.IsClean

/-- From a clean reading, `read` gives `a` and leaves it clean. -/
def Gives {α : Type} (read : Progress → Progress × α) (a : α) : Prop :=
  ∀ p, p.IsClean → ∃ q, q.IsClean ∧ read p = (q, a)

/-- The outermost site of a document. -/
abbrev Document.site (d : Document) : Site := { document := d }

namespace Take
variable {d : Document} {line : Nat}

/-- A scalar that means something gives what is taken from its meaning. -/
theorem gives_scalar {α : Type} {target : String} {take : Scalar → String → Option α} {tag text : String}
    {found : Scalar} {a : α} (hmeaning : meaning tag text = .ok found) (hnull : found ≠ .null)
    (htake : take found text = some a) :
    Gives (scalar target take d.site (.scalar line tag text)) (some a) := by
  intro p hp
  refine ⟨p.visit false, hp.visit, ?_⟩
  have hfailed := hp.visit.failed
  cases found with
  | null => exact absurd rfl hnull
  | _ => simp [scalar, Site.enter, hfailed, hmeaning, htake]

theorem meaning_signed {i : Int} (hleast : Word.least ≤ i) (hmost : i ≤ Word.unsignedGreatest) :
    meaning "!!int" (String.ofList (signed i)) = .ok (.integer i) := by
  have hfound := Scalar.meaning_signed ("!!int" == "!!timestamp") hleast hmost
  simp only [meaning]
  rw [if_neg (by decide), if_neg (by decide), hfound]
  rfl

theorem fits_range {i : Int} (h : Word.fits i = true) : Word.least ≤ i ∧ i ≤ Word.unsignedGreatest := by
  have hbounds := Word.fits_iff.mp h
  simp only [Word.least, Word.unsignedGreatest]
  omega

theorem gives_word (d : Document) (line : Nat) {i : Int} (h : Word.fits i = true) :
    Gives (word d.site (Lines.word line (signed i))) (some i) := by
  obtain ⟨hleast, hmost⟩ := fits_range h
  rw [Lines.word, Node.plain_signed line hleast hmost]
  exact gives_scalar (meaning_signed hleast hmost) (by simp) (by simp [h])

theorem gives_unsigned {n : Nat} (h : n ≤ Word.unsignedGreatest) :
    Gives (unsigned d.site (Lines.word line (digits n))) (some n) := by
  have hleast : Word.least ≤ (n : Int) := by
    simp only [Word.least]
    omega
  have hmost : (n : Int) ≤ Word.unsignedGreatest := Int.ofNat_le.mpr h
  rw [← signed_natCast, Lines.word, Node.plain_signed line hleast hmost]
  exact gives_scalar (meaning_signed hleast hmost) (by simp) (by simp)

theorem gives_text (line : Nat) (text : String) :
    Gives (Take.text d.site (.scalar line "!!str" text)) (some text) :=
  gives_scalar rfl (by simp) rfl

end Take

namespace Filling
variable {κ σ : Type} {t : Target κ σ} {f : Filling σ}

/-- A filling that went well so far, of a mapping that is not taken over into another one. -/
structure Holds (f : Filling σ) (state : σ) : Prop where
  clean : f.progress.IsClean
  seen : f.seen = none
  state : f.state = state

theorem Holds.takeEntry {state after : σ} {site : Site} {entry : Node × Node} {key : κ} (h : f.Holds state)
    (hmerge : entry.1.isMerge = false) (hkey : Gives (t.key site entry.1) (some key))
    (hput : Gives (fun p => t.put key site entry p state) after) : (takeEntry t site f entry).Holds after := by
  obtain ⟨p, hp, hread⟩ := hkey _ h.clean
  obtain ⟨q, hq, htaken⟩ := hput p hp
  rw [Filling.takeEntry, if_neg (by simp [h.clean.failed, hmerge]), hread]
  simp only [mark, h.seen, h.state, htaken]
  exact ⟨hq, rfl, rfl⟩

/-- Without a key that takes over other mappings, the entries are all there is. -/
theorem takeEntries_of_no_merge (generic : Take Value) (fuel : Nat) (site : Site) {entries : List (Node × Node)}
    (h : ∀ entry ∈ entries, entry.1.isMerge = false) :
    takeEntries generic t fuel site entries f
      = entries.foldl (takeEntry t site) { f with state := t.start f.state } := by
  have hmerge : mergeNode? entries = none := by
    rw [mergeNode?, List.filter_eq_nil_iff.mpr fun entry hentry => by simp [h entry hentry]]
    rfl
  unfold takeEntries
  rw [hmerge]
  cases fuel <;> rfl

end Filling

/-- Keys that are all different are not complained about. -/
theorem Node.repeatedKeys_of_pairwise {entries : List (Node × Node)}
    (h : entries.Pairwise fun a b => a.1.sameKey b.1 = false) : repeatedKeys entries = [] := by
  induction h with
  | nil => rfl
  | cons hhead _ ih =>
    rw [repeatedKeys, ih, List.filter_eq_nil_iff.mpr fun other hother => by simp [hhead other hother]]
    rfl

end Yaml

/-! ### Cells -/

/-- A key above all others is set at the end. -/
theorem Ordered.insert_above {α : Type} {cells : List (Int × α)} {key : Int} (value : α)
    (h : ∀ cell ∈ cells, cell.1 < key) : insert key value cells = cells ++ [(key, value)] := by
  induction cells with
  | nil => rfl
  | cons cell rest ih =>
    have hcell := h cell (List.mem_cons_self ..)
    rw [insert, if_neg (by omega), if_neg (by omega), ih fun c hc => h c (List.mem_cons_of_mem cell hc)]
    rfl

theorem Ordered.eq_or_mem_of_mem_insert {α : Type} {cells : List (Int × α)} {key : Int} {value : α} {cell : Int × α}
    (h : cell ∈ insert key value cells) : cell = (key, value) ∨ cell ∈ cells := by
  induction cells with
  | nil => exact .inl (List.mem_singleton.mp h)
  | cons first rest ih =>
    rw [insert] at h
    split at h
    · exact List.mem_cons.mp h
    split at h
    · exact (List.mem_cons.mp h).imp_right (List.mem_cons_of_mem first)
    · rcases List.mem_cons.mp h with rfl | h
      · exact .inr (List.mem_cons_self ..)
      · exact (ih h).imp_right (List.mem_cons_of_mem first)

/-- Setting a value keeps the keys ascending. -/
theorem Ordered.ascending_insert {α : Type} {cells : List (Int × α)} {key : Int} {value : α}
    (h : cells.Pairwise fun a b => a.1 < b.1) : (insert key value cells).Pairwise fun a b => a.1 < b.1 := by
  induction cells with
  | nil => exact List.pairwise_singleton ..
  | cons first rest ih =>
    obtain ⟨habove, hrest⟩ := List.pairwise_cons.mp h
    rw [insert]
    split
    · next hbefore =>
      exact .cons (List.forall_mem_cons.mpr ⟨hbefore, fun c hc => Int.lt_trans hbefore (habove c hc)⟩) h
    split
    · next heq =>
      rw [heq]
      exact .cons habove hrest
    · refine .cons (fun c hc => ?_) (ih hrest)
      rcases eq_or_mem_of_mem_insert hc with rfl | hc
      · omega
      · exact habove c hc

namespace Snapshot
open Text.Decimal Yaml Yaml.Lines

/-- The words of a cell. -/
def cellWords (cell : Int × Nat) : List Char × List Char := (signed cell.1, digits cell.2)

/-- Cells that a document can hold, ascending. -/
structure AreStorable (cells : List (Int × Nat)) : Prop where
  ascending : cells.Pairwise fun a b => a.1 < b.1
  keys : ∀ cell ∈ cells, Word.fits cell.1 = true
  values : ∀ cell ∈ cells, cell.2 ≤ Word.unsignedGreatest

theorem AreStorable.tail {cell : Int × Nat} {cells : List (Int × Nat)} (h : AreStorable (cell :: cells)) :
    AreStorable cells where
  ascending := (List.pairwise_cons.mp h.ascending).2
  keys c hc := h.keys c (List.mem_cons_of_mem cell hc)
  values c hc := h.values c (List.mem_cons_of_mem cell hc)

theorem AreStorable.insert {cells : List (Int × Nat)} (h : AreStorable cells) {key : Int} {value : Nat}
    (hkey : Word.fits key = true) (hvalue : value ≤ Word.unsignedGreatest) :
    AreStorable (Ordered.insert key value cells) where
  ascending := Ordered.ascending_insert h.ascending
  keys cell hcell := by
    rcases Ordered.eq_or_mem_of_mem_insert hcell with rfl | hcell
    · exact hkey
    · exact h.keys cell hcell
  values cell hcell := by
    rcases Ordered.eq_or_mem_of_mem_insert hcell with rfl | hcell
    · exact hvalue
    · exact h.values cell hcell

/-- Entries in any order make cells that a document can hold, if they are words. -/
theorem areStorable_ofEntries {entries : List (Int × Nat)}
    (h : ∀ entry ∈ entries, Word.fits entry.1 = true ∧ entry.2 ≤ Word.unsignedGreatest) :
    AreStorable (Ordered.ofEntries entries) := by
  have hempty : AreStorable [] := ⟨.nil, fun _ hcell => (by cases hcell), fun _ hcell => (by cases hcell)⟩
  refine List.foldlRecOn entries _ hempty fun cells hcells entry hentry => ?_
  obtain ⟨hkey, hvalue⟩ := h entry hentry
  exact hcells.insert hkey hvalue

theorem key_node {cells : List (Int × Nat)} (h : AreStorable cells) {number : Nat} {entry : Node × Node}
    (hentry : entry ∈ Part.innerNodes number (cells.map cellWords)) :
    ∃ cell ∈ cells, ∃ line, entry.1 = .scalar line "!!int" (String.ofList (signed cell.1)) := by
  induction cells generalizing number with
  | nil => cases hentry
  | cons cell rest ih =>
    rcases List.mem_cons.mp hentry with rfl | hentry
    · obtain ⟨hleast, hmost⟩ := Take.fits_range (h.keys cell (List.mem_cons_self ..))
      exact ⟨cell, List.mem_cons_self .., number, Node.plain_signed number hleast hmost⟩
    · obtain ⟨c, hc, hline⟩ := ih h.tail hentry
      exact ⟨c, List.mem_cons_of_mem cell hc, hline⟩

theorem keys_differ {cells : List (Int × Nat)} (h : AreStorable cells) (number : Nat) :
    (Part.innerNodes number (cells.map cellWords)).Pairwise fun a b => a.1.sameKey b.1 = false := by
  induction cells generalizing number with
  | nil => exact .nil
  | cons cell rest ih =>
    refine .cons (fun entry hentry => ?_) (ih h.tail (number + 1))
    obtain ⟨hleast, hmost⟩ := Take.fits_range (h.keys cell (List.mem_cons_self ..))
    obtain ⟨other, hother, line, hkey⟩ := key_node h.tail hentry
    have hlt := (List.pairwise_cons.mp h.ascending).1 other hother
    have hne : String.ofList (signed cell.1) ≠ String.ofList (signed other.1) := by
      intro heq
      have := signed_injective (String.ofList_injective heq)
      omega
    show (word number (signed cell.1)).sameKey entry.1 = false
    rw [hkey, word, Node.plain_signed number hleast hmost]
    exact beq_eq_false_iff_ne.mpr hne

namespace Cells
variable {d : Document}

/-- A cell above those before it is set behind them. -/
theorem gives_put {cell : Int × Nat} {before : List (Int × Nat)} (habove : ∀ a ∈ before, a.1 < cell.1)
    (hvalue : cell.2 ≤ Word.unsignedGreatest) {key : Node} {number : Nat} :
    Gives (fun p => put cell.1 d.site (key, word number (digits cell.2)) p { cells := before, begun := true })
      { cells := before ++ [cell], begun := true } := by
  intro p hp
  have hread : Gives (Take.unsigned d.site (word number (digits cell.2))) (some cell.2) :=
    Take.gives_unsigned hvalue
  obtain ⟨q, hq, hvalue⟩ := hread p hp
  exact ⟨q, hq, by simp only [put, hvalue, Ordered.insert_above cell.2 habove]⟩

/-- Cells are taken one after the other, each behind those before. -/
theorem holds_takeEntries {cells : List (Int × Nat)} (h : AreStorable cells)
    {before : List (Int × Nat)} (habove : ∀ a ∈ before, ∀ b ∈ cells, a.1 < b.1) {f : Filling Cells}
    (hf : f.Holds { cells := before, begun := true }) (number : Nat) :
    ((Part.innerNodes number (cells.map cellWords)).foldl (Filling.takeEntry target d.site) f).Holds
      { cells := before ++ cells, begun := true } := by
  induction cells generalizing before f number with
  | nil => rwa [List.append_nil]
  | cons cell rest ih =>
    have hkey := h.keys cell (List.mem_cons_self ..)
    have hmerge : (word number (signed cell.1)).isMerge = false := by
      obtain ⟨hleast, hmost⟩ := Take.fits_range hkey
      rw [word, Node.plain_signed number hleast hmost]
      exact Bool.and_false _
    have hput := @gives_put d cell before (fun a ha => habove a ha cell (List.mem_cons_self ..))
      (h.values cell (List.mem_cons_self ..)) (word number (signed cell.1)) number
    have hnext : ∀ a ∈ before ++ [cell], ∀ b ∈ rest, a.1 < b.1 := by
      intro a ha b hb
      rcases List.mem_append.mp ha with ha | ha
      · exact habove a ha b (List.mem_cons_of_mem cell hb)
      · rw [List.mem_singleton.mp ha]
        exact (List.pairwise_cons.mp h.ascending).1 b hb
    have hcell : (Filling.takeEntry target d.site f (word number (signed cell.1), word number (digits cell.2))).Holds
        { cells := before ++ [cell], begun := true } := hf.takeEntry hmerge (Take.gives_word d number hkey) hput
    have hrest := ih h.tail hnext hcell (number + 1)
    rw [List.append_assoc] at hrest
    exact hrest

theorem gives_take {cells : List (Int × Nat)} (h : AreStorable cells) (line number : Nat) (tag : String) :
    Gives (fun p => take d.site (.mapping line tag (Part.innerNodes number (cells.map cellWords))) p []) cells := by
  intro p hp
  have hmerge : ∀ entry ∈ Part.innerNodes number (cells.map cellWords), entry.1.isMerge = false := by
    intro entry hentry
    obtain ⟨cell, -, line, hkey⟩ := key_node h hentry
    rw [hkey]
    exact Bool.and_false _
  have hholds := @holds_takeEntries d cells h [] (fun a ha => absurd ha List.not_mem_nil)
    { progress := p.visit false, state := start {} } ⟨hp.visit, rfl, rfl⟩ number
  refine ⟨_, hholds.clean, ?_⟩
  simp only [take, Site.enter, List.isEmpty_nil, Bool.not_true, hp.visit.failed, Bool.false_eq_true, if_false,
    Node.repeatedKeys_of_pairwise (keys_differ h number), Filling.takeEntries_of_no_merge _ _ _ hmerge]
  exact Prod.ext rfl (congrArg Cells.cells hholds.state)

end Cells

/-! ### Fields -/

/-- A snapshot that a document can hold: its numbers are words, and its policy has a name. -/
structure IsStorable (s : Snapshot) : Prop where
  tapeSize : Word.fits s.tapeSize = true
  cellWidth : Word.fits s.cellWidth = true
  eof : ∃ policy : EofPolicy, policy.isKnown = true ∧ s.eof = policy.name
  pointer : Word.fits s.pointer = true
  turns : Word.fits s.turns = true
  cells : AreStorable s.cells

/-- The part of cells, if there are any. -/
def cellParts : List (Int × Nat) → List Part
  | [] => []
  | cell :: rest => [.mapping "cells".toList (cellWords cell) (rest.map cellWords)]

/-- The parts of a snapshot behind the first one. -/
def laterParts (s : Snapshot) : List Part :=
  [.entry "cell_width".toList (signed s.cellWidth), .entry "eof".toList s.eof.toList,
    .entry "pointer".toList (signed s.pointer), .entry "turns".toList (signed s.turns)] ++ cellParts s.cells

/-- The parts that the document of a snapshot is made of. -/
def parts (s : Snapshot) : List Part := .entry "tape_size".toList (signed s.tapeSize) :: s.laterParts

/-- The name of a policy stands plain, and is read as a text. -/
theorem IsStorable.eof_plain {s : Snapshot} (h : s.IsStorable) :
    Yaml.Printer.text s.eof = s.eof.toList ++ ['\n'] ∧ isWord s.eof.toList = true
      ∧ ∀ number, word number s.eof.toList = .scalar number "!!str" s.eof := by
  obtain ⟨policy, hknown, heof⟩ := h.eof
  rw [heof]
  cases policy with
  | unknown => cases hknown
  | _ => exact ⟨by decide +kernel, by decide, fun _ => rfl⟩

theorem text_cellParts (cells : List (Int × Nat)) : Part.text (cellParts cells) = cellLines cells := by
  have hline (cell : Int × Nat) : (Part.innerLine (cellWords cell)).text ++ ['\n'] = cellLine cell := by
    simp [Part.innerLine, cellWords, Line.text, cellLine, Yaml.Printer.indentation]
  cases cells with
  | nil => rfl
  | cons cell rest =>
    simp only [cellParts, Part.text, List.flatMap_cons, List.flatMap_nil, List.append_nil, Part.lines, List.map_cons,
      List.map_map, joined, List.flatMap_map, Function.comp_apply, hline]
    rfl

theorem render_eq {s : Snapshot} (h : s.IsStorable) : s.render = Part.text s.parts := by
  have hcells := text_cellParts s.cells
  simp only [Part.text, joined] at hcells
  simp [render, parts, laterParts, Part.text, joined, Part.lines, Line.text, fieldLine, field, h.eof_plain.1,
    ← hcells]

theorem arePlain_parts {s : Snapshot} (h : s.IsStorable) : Part.ArePlain s.parts := by
  have hfield {name : String} (hname : isKey name.toList = true ∧ name.toList.length ≤ Lexer.keyLimit)
      {value : List Char} (hvalue : isWord value = true) :
      ∀ line ∈ (Part.entry name.toList value).lines, line.IsPlain := by
    intro line hline
    rw [List.mem_singleton.mp hline]
    exact ⟨hname.1, hname.2, hvalue⟩
  have hcells : Part.ArePlain (cellParts s.cells) := by
    cases hs : s.cells with
    | nil => exact fun part hpart => absurd hpart List.not_mem_nil
    | cons cell rest =>
      have hstorable := h.cells
      rw [hs] at hstorable
      intro part hpart line hline
      rw [List.mem_singleton.mp hpart] at hline
      rcases List.mem_cons.mp hline with rfl | hline
      · exact ⟨by decide, by decide⟩
      · rw [← List.map_cons, List.map_map] at hline
        obtain ⟨cell, hcell, rfl⟩ := List.mem_map.mp hline
        obtain ⟨hleast, hmost⟩ := Take.fits_range (hstorable.keys cell hcell)
        refine ⟨isWord_signed cell.1, ?_, ?_⟩
        · exact Nat.le_trans (length_signed_le hleast hmost) (by decide)
        · show isWord (digits cell.2) = true
          rw [← signed_natCast]
          exact isWord_signed _
  intro part hpart
  simp only [parts, laterParts, List.cons_append, List.nil_append, List.mem_cons] at hpart
  rcases hpart with rfl | rfl | rfl | rfl | rfl | hpart
  · exact hfield (by decide) (isWord_signed _)
  · exact hfield (by decide) (isWord_signed _)
  · exact hfield (by decide) h.eof_plain.2.1
  · exact hfield (by decide) (isWord_signed _)
  · exact hfield (by decide) (isWord_signed _)
  · exact hcells part hpart

namespace Fields
variable {d : Document} {s after : Snapshot} {done : List String} {f : Filling Fields}

theorem word_name {name : String} (h : name ∈ names) (number : Nat) :
    word number name.toList = .scalar number "!!str" name := by
  simp only [names, List.mem_cons, List.not_mem_nil, or_false] at h
  rcases h with rfl | rfl | rfl | rfl | rfl | rfl <;> rfl

/-- A field that has not been set yet is set. -/
theorem holds_takeEntry (name : String) (number : Nat) {value : Node} (hname : name ∈ names)
    (hfield : Gives (fun p => takeField name d.site value p s) after) (hf : f.Holds { snapshot := s, done })
    (hdone : name ∉ done) :
    (Filling.takeEntry target d.site f (word number name.toList, value)).Holds
      { snapshot := after, done := name :: done } := by
  have hkey : Gives (target.key d.site (.scalar number "!!str" name)) (some name) :=
    Take.gives_text number name
  rw [word_name hname]
  refine hf.takeEntry (Bool.and_false _) hkey fun p hp => ?_
  obtain ⟨q, hq, htaken⟩ := hfield p hp
  refine ⟨q, hq, ?_⟩
  show put name d.site _ p _ = _
  rw [put, if_neg (by simpa using hname), if_neg (by simpa using hdone)]
  simp only [htaken]

theorem gives_store {α : Type} {take : Yaml.Progress → Yaml.Progress × Option α} {a : α} (h : Gives take (some a))
    {set : α → Snapshot} : Gives (fun p => store (take p) s set) (set a) := by
  intro p hp
  obtain ⟨q, hq, htaken⟩ := h p hp
  exact ⟨q, hq, by simp only [htaken, store]⟩

theorem gives_cells {n : Node} {cells : List (Int × Nat)}
    (h : Gives (fun p => Cells.take d.site n p s.cells) cells) :
    Gives (fun p => takeField "cells" d.site n p s) { s with cells } := by
  intro p hp
  obtain ⟨q, hq, htaken⟩ := h p hp
  exact ⟨q, hq, by simp [takeField, htaken]⟩

/-- The entries of the parts of a snapshot, with the lines they are in. -/
theorem nodes_parts (s : Snapshot) :
    Part.nodes 1 s.parts
      = [(word 1 "tape_size".toList, word 1 (signed s.tapeSize)),
          (word 2 "cell_width".toList, word 2 (signed s.cellWidth)),
          (word 3 "eof".toList, word 3 s.eof.toList), (word 4 "pointer".toList, word 4 (signed s.pointer)),
          (word 5 "turns".toList, word 5 (signed s.turns))] ++ Part.nodes 6 (cellParts s.cells) := rfl

theorem nodes_cellParts (cell : Int × Nat) (rest : List (Int × Nat)) :
    Part.nodes 6 (cellParts (cell :: rest))
      = [(word 6 "cells".toList, .mapping 7 "!!map" (Part.innerNodes 7 ((cell :: rest).map cellWords)))] := rfl

/-- The fields before the cells are taken one after the other. -/
theorem holds_fields (h : s.IsStorable) (hf : f.Holds {}) :
    ([(word 1 "tape_size".toList, word 1 (signed s.tapeSize)),
        (word 2 "cell_width".toList, word 2 (signed s.cellWidth)),
        (word 3 "eof".toList, word 3 s.eof.toList), (word 4 "pointer".toList, word 4 (signed s.pointer)),
        (word 5 "turns".toList, word 5 (signed s.turns))].foldl (Filling.takeEntry target d.site) f).Holds
      { snapshot := { s with cells := [] }, done := ["turns", "pointer", "eof", "cell_width", "tape_size"] } := by
  have heof : Gives (Take.text d.site (word 3 s.eof.toList)) (some s.eof) := by
    rw [h.eof_plain.2.2 3]
    exact Take.gives_text 3 s.eof
  have h₁ := holds_takeEntry "tape_size" 1 (by decide) (gives_store (Take.gives_word d 1 h.tapeSize)) hf (by decide)
  have h₂ := holds_takeEntry "cell_width" 2 (by decide) (gives_store (Take.gives_word d 2 h.cellWidth)) h₁ (by decide)
  have h₃ := holds_takeEntry "eof" 3 (by decide) (gives_store heof) h₂ (by decide)
  have h₄ := holds_takeEntry "pointer" 4 (by decide) (gives_store (Take.gives_word d 4 h.pointer)) h₃ (by decide)
  have h₅ := holds_takeEntry "turns" 5 (by decide) (gives_store (Take.gives_word d 5 h.turns)) h₄ (by decide)
  exact h₅

/-- All fields are taken, the cells if there are any. -/
theorem holds_parts (h : s.IsStorable) (hf : f.Holds {}) :
    ∃ done, ((Part.nodes 1 s.parts).foldl (Filling.takeEntry target d.site) f).Holds { snapshot := s, done } := by
  have hfields := holds_fields (d := d) h hf
  rw [nodes_parts, List.foldl_append]
  cases hcells : s.cells with
  | nil =>
    rw [← hcells] at hfields
    exact ⟨_, hfields⟩
  | cons cell rest =>
    have htake : Gives (fun p => takeField "cells" d.site
        (.mapping 7 "!!map" (Part.innerNodes 7 (s.cells.map cellWords))) p { s with cells := [] }) s :=
      gives_cells (s := { s with cells := [] }) (Cells.gives_take h.cells 7 7 "!!map")
    rw [nodes_cellParts, ← hcells]
    exact ⟨_, holds_takeEntry "cells" 6 (by decide) htake hfields (by decide)⟩

/-- What is taken from the parts of a snapshot is the snapshot. -/
theorem take_parts (h : s.IsStorable) (size : Nat) :
    ∃ p, p.IsClean ∧ take { root := .mapping 1 "!!map" (Part.nodes 1 s.parts), size } = (p, s) := by
  obtain ⟨hmerge, hkeys⟩ : (∀ entry ∈ Part.nodes 1 s.parts, entry.1.isMerge = false)
      ∧ Node.repeatedKeys (Part.nodes 1 s.parts) = [] := by
    rw [nodes_parts]
    cases s.cells with
    | nil => exact ⟨by simp [cellParts, Part.nodes]; decide, rfl⟩
    | cons cell rest => exact ⟨by simp [nodes_cellParts]; decide, rfl⟩
  have hstart : (({} : Yaml.Progress).visit false).IsClean := Yaml.Progress.IsClean.visit ⟨rfl, rfl, rfl⟩
  obtain ⟨done, hholds⟩ := @holds_parts { root := .mapping 1 "!!map" (Part.nodes 1 s.parts), size } s
    { progress := ({} : Yaml.Progress).visit false, state := {} } h ⟨hstart, rfl, rfl⟩
  refine ⟨_, hholds.clean, ?_⟩
  simp only [take, Site.enter, List.isEmpty_nil, Bool.not_true, hkeys, Filling.takeEntries_of_no_merge _ _ _ hmerge]
  exact Prod.ext rfl (congrArg Fields.snapshot hholds.state)

end Fields

/-- A snapshot is read back from its document. -/
theorem parse_encode {s : Snapshot} (h : s.IsStorable) : parse s.encode = (s, none) := by
  obtain ⟨size, hread⟩ := read_parts (arePlain_parts h)
  obtain ⟨p, hp, htake⟩ := Fields.take_parts h size
  have hdocument : Yaml.read s.encode
      = .ok (some { root := .mapping 1 "!!map" (Part.nodes 1 s.parts), size }) := by
    rw [encode, render_eq h]
    exact hread
  rw [parse, hdocument]
  simp only [htake, hp.trouble?, Option.map_none]

/-- The names in the document of a snapshot. -/
theorem texts_parts (s : Snapshot) :
    (Part.nodes 1 s.parts).map (·.1.text)
      = ["tape_size", "cell_width", "eof", "pointer", "turns"] ++ if s.cells.isEmpty then [] else ["cells"] := by
  rw [Fields.nodes_parts]
  cases s.cells with
  | nil => rfl
  | cons cell rest =>
    rw [Fields.nodes_cellParts]
    rfl

/-- **A snapshot is read back from its document**, without a fault. The document names each field once, but for cells
where there are none, so that they are left at nothing. No other snapshot has the same document. -/
theorem document_round_trips (s : Snapshot) (h : s.IsStorable) :
    parse s.encode = (s, none) ∧
      (∃ line tag entries size, Yaml.read s.encode = .ok (some { root := .mapping line tag entries, size }) ∧
        entries.map (·.1.text)
          = ["tape_size", "cell_width", "eof", "pointer", "turns"] ++ if s.cells.isEmpty then [] else ["cells"]) ∧
      ∀ other : Snapshot, other.IsStorable → other.encode = s.encode → other = s := by
  refine ⟨parse_encode h, ?_, fun other hother hsame => ?_⟩
  · obtain ⟨size, hread⟩ := read_parts (arePlain_parts h)
    refine ⟨1, "!!map", _, size, ?_, texts_parts s⟩
    rw [encode, render_eq h]
    exact hread
  · have hread := parse_encode hother
    rw [hsame, parse_encode h] at hread
    exact (Prod.mk.inj hread).1.symm

/-- The greatest and the least words, with cells in no order and one of them entered twice. -/
theorem document_round_trips_extremes :
    let s : Snapshot :=
      { tapeSize := Word.greatest, cellWidth := Word.least, eof := "unchanged", pointer := -1, turns := Word.least
        cells := Ordered.ofEntries [(7, 0), (Word.least, 18446744073709551615), (-3, 1), (Word.greatest, 9), (7, 300)] }
    s.cells = [(Word.least, 18446744073709551615), (-3, 1), (7, 300), (Word.greatest, 9)] ∧ s.IsStorable ∧
      parse s.encode = (s, none) := by
  intro s
  have hstorable : s.IsStorable :=
    ⟨by decide, by decide, ⟨.unchanged, rfl, rfl⟩, by decide, by decide, areStorable_ofEntries (by decide)⟩
  exact ⟨by decide, hstorable, (document_round_trips s hstorable).1⟩

end Snapshot
end TapeMachine
