import TapeMachine.Disk

/-! What writing a file does to a disk.

A file can be written where its path leads to something that is not a directory, in a directory that exists
(`Disk.Writable`). Then nothing else changes: every other place holds what it held, and every path leads where it
led. `Disk.Follows own` says this of any number of writes to places in `own`. Two disks that differ at most in what some
of their files hold (`Disk.Matches`) are read and written alike. -/
namespace TapeMachine.Disk

/-- Whether something succeeds with a given result can be evaluated. -/
instance {ε α : Type} [DecidableEq α] (e : Except ε α) (a : α) : Decidable (e = .ok a) :=
  match e with
  | .ok b => decidable_of_iff (b = a) ⟨congrArg _, Except.ok.inj⟩
  | .error _ => isFalse nofun

variable {d d' : Disk} {place : Place} {path : String}

/-! ### What stands at a place -/

theorem find?_of_listed {entry : Entry} (h : d.entry? place = some entry) : d.find? place = some entry := by
  rw [find?, h]

/-- Something stands at a place if something stands at or below it, or if the working directory does. -/
theorem isSome_find?_iff :
    (d.find? place).isSome = true ↔
      place <+: d.workingDirectory ∨ ∃ entry ∈ d.entries, place <+: entry.1 := by
  cases hentry : d.entry? place with
  | some entry =>
    obtain ⟨found, hmem, heq⟩ := List.lookup_isSome_iff.mp (Option.isSome_of_eq_some hentry)
    have hbelow : place <+: found.1 := beq_iff_eq.mp heq ▸ List.prefix_refl place
    rw [find?_of_listed hentry]
    exact iff_of_true rfl (.inr ⟨found, hmem, hbelow⟩)
  | none =>
    simp only [find?, hentry, Bool.or_eq_true, List.isPrefixOf_iff_prefix, List.any_eq_true]
    split
    · next h => exact iff_of_true rfl h
    · next h => exact iff_of_false (by decide) h

/-- What a place holds that has no entry of its own. -/
theorem find?_of_unlisted (h : d.entry? place = none) :
    d.find? place = if (d.find? place).isSome then some .directory else none := by
  simp only [find?, h]
  split <;> rfl

/-- What is above something exists. -/
theorem isSome_find?_above {above : Place} (h : above <+: place) (hplace : (d.find? place).isSome = true) :
    (d.find? above).isSome = true := by
  rw [isSome_find?_iff] at hplace ⊢
  rcases hplace with hwork | ⟨entry, hentry, hunder⟩
  · exact .inl (h.trans hwork)
  · exact .inr ⟨entry, hentry, h.trans hunder⟩

/-! ### Where paths lead -/

/-- All that is above a place exists. -/
def HasParents (d : Disk) (place : Place) : Prop :=
  ∀ above, above <+: place → above ≠ place → (d.find? above).isSome = true

theorem HasParents.of_isSome (h : (d.find? place).isSome = true) : d.HasParents place :=
  fun _ hbelow _ => isSome_find?_above hbelow h

/-- A walk step by step: what the place that it has come to is, and where it goes on. -/
theorem walk_cons {start : Place} {name : String} {rest : List String} (h : d.walk start (name :: rest) = .ok place) :
    d.find? start = some .directory ∧ ∃ next, d.walk next rest = .ok place ∧
      (next = start ∨ next = start.dropLast ∨ next = start ++ [name]) ∧
      ∀ e : Disk, e.find? start = some .directory → e.walk start (name :: rest) = e.walk next rest := by
  rw [walk] at h
  split at h
  · cases h
  · cases h
  · next hdirectory =>
    refine ⟨hdirectory, ?_⟩
    split at h
    · next hname => exact ⟨_, h, .inl rfl, fun e he => by rw [walk, he]; exact if_pos hname⟩
    · next hname =>
      split at h
      · next hback =>
        refine ⟨_, h, .inr (.inl rfl), fun e he => ?_⟩
        rw [walk, he]
        exact (if_neg hname).trans (if_pos hback)
      · next hback =>
        split at h
        · cases h
        · next hlong =>
          refine ⟨_, h, .inr (.inr rfl), fun e he => ?_⟩
          rw [walk, he]
          exact (if_neg hname).trans ((if_neg hback).trans (if_neg hlong))

theorem HasParents.walk {start : Place} {names : List String} (hstart : d.HasParents start)
    (h : d.walk start names = .ok place) : d.HasParents place := by
  induction names generalizing start with
  | nil =>
    cases h
    exact hstart
  | cons name rest ih =>
    obtain ⟨hdirectory, next, hnext, hcases, -⟩ := walk_cons h
    have hsome : (d.find? start).isSome = true := Option.isSome_of_eq_some hdirectory
    refine ih ?_ hnext
    rcases hcases with rfl | rfl | rfl
    · exact hstart
    · have hshorter := List.dropLast_prefix start
      exact .of_isSome (isSome_find?_above hshorter hsome)
    · intro above hbelow hne
      rcases List.prefix_concat_iff.mp hbelow with heq | hbelow
      · exact absurd heq hne
      · exact isSome_find?_above hbelow hsome

/-- A path is walked from the root or from the working directory, whatever the disk holds. -/
theorem locate_eq_ok (h : d.locate path = .ok place) :
    ∃ start, start <+: d.workingDirectory ∧ d.walk start (names path) = .ok place ∧
      ∀ e : Disk, e.workingDirectory = d.workingDirectory → e.locate path = e.walk start (names path) := by
  unfold locate at h
  split at h
  · cases h
  · next hzero =>
    split at h
    · cases h
    · next hempty =>
      split at h
      · cases h
      · next hlong =>
        split at h
        · next hroot =>
          refine ⟨[], List.nil_prefix, h, fun e _ => ?_⟩
          rw [locate, if_neg hzero, if_neg hempty, if_neg hlong, if_pos hroot]
        · next hroot =>
          refine ⟨_, List.prefix_refl _, h, fun e he => ?_⟩
          rw [locate, if_neg hzero, if_neg hempty, if_neg hlong, if_neg hroot, he]

theorem HasParents.locate (h : d.locate path = .ok place) : d.HasParents place := by
  obtain ⟨start, hstart, hwalk, -⟩ := locate_eq_ok h
  exact HasParents.walk (.of_isSome (isSome_find?_iff.mpr (.inl hstart))) hwalk

/-! ### Targets -/

/-- A place where a file can be written. -/
structure Writable (d : Disk) (place : Place) : Prop where
  notDirectory : d.find? place ≠ some .directory
  hasParents : d.HasParents place

/-- A path names a file for writing if it leads to something else than a directory, and does not ask for one. -/
theorem target_eq_ok_iff :
    d.target path = .ok place ↔
      d.locate path = .ok place ∧ d.find? place ≠ some .directory ∧ namesDirectory path = false := by
  unfold target
  cases d.locate path with
  | error problem => simp
  | ok found =>
    simp only [Except.ok.injEq]
    cases hfind : d.find? found with
    | none =>
      cases namesDirectory path with
      | true => simp
      | false =>
        simp only [Bool.false_eq_true, if_false, Except.ok.injEq, and_true]
        exact ⟨fun h => ⟨h, by rw [← h, hfind]; simp⟩, And.left⟩
    | some entry =>
      cases entry with
      | directory =>
        simp only [reduceCtorEq, false_iff, not_and]
        rintro rfl hne
        exact absurd hfind hne
      | file content =>
        cases namesDirectory path with
        | true => simp
        | false =>
          simp only [Bool.false_eq_true, if_false, Except.ok.injEq, and_true]
          exact ⟨fun h => ⟨h, by rw [← h, hfind]; simp⟩, And.left⟩

/-- An empty path names no file. -/
theorem ne_empty_of_target (h : d.target path = .ok place) : path ≠ "" := by
  rintro rfl
  cases h

theorem Writable.of_target (h : d.target path = .ok place) : d.Writable place := by
  obtain ⟨hlocate, hnot, -⟩ := target_eq_ok_iff.mp h
  exact ⟨hnot, .locate hlocate⟩

/-- A path can be read if it leads to a file, and does not ask for a directory. -/
theorem read_eq_ok_iff {content : List UInt8} :
    d.read path = .ok content ↔
      ∃ place, d.locate path = .ok place ∧ d.find? place = some (.file content) ∧ namesDirectory path = false := by
  unfold read
  cases d.locate path with
  | error problem => simp
  | ok found =>
    simp only [Except.ok.injEq, exists_eq_left']
    cases d.find? found with
    | none => simp
    | some entry =>
      cases entry with
      | directory => simp
      | file held =>
        cases namesDirectory path with
        | true => simp
        | false => simp

/-- A file that could be written and is missing is missing to a reader. -/
theorem read_of_missing (h : d.target path = .ok place) (hmissing : d.find? place = none) :
    d.read path = .error (.file "open" path .missing) := by
  rw [read, (target_eq_ok_iff.mp h).1]
  simp only [hmissing]

/-! ### Writing a file -/

theorem lookup_filter_ne {entries : List (Place × Entry)} {other : Place} (hne : other ≠ place) :
    (entries.filter fun (p, _) => p != place).lookup other = entries.lookup other := by
  induction entries with
  | nil => rfl
  | cons entry rest ih =>
    obtain ⟨p, held⟩ := entry
    by_cases hp : p = place
    · have hother : (other == p) = false := beq_eq_false_iff_ne.mpr (hp ▸ hne)
      rw [List.filter_cons_of_neg (by simp [hp]), List.lookup_cons, hother, ih]
    · rw [List.filter_cons_of_pos (by simp [hp]), List.lookup_cons, List.lookup_cons, ih]

theorem find?_put (d : Disk) (place : Place) (entry : Entry) : (d.put place entry).find? place = some entry := by
  refine find?_of_listed ?_
  rw [put, entry?, List.lookup_cons, beq_self_eq_true]

theorem isSome_find?_put {entry : Entry} (h : d.HasParents place) {other : Place} (hne : other ≠ place) :
    ((d.put place entry).find? other).isSome = true ↔ (d.find? other).isSome = true := by
  rw [isSome_find?_iff]
  constructor
  · rintro (hwork | ⟨found, hfound, hbelow⟩)
    · exact isSome_find?_iff.mpr (.inl hwork)
    · rcases List.mem_cons.mp hfound with rfl | hfound
      · exact h other hbelow hne
      · exact isSome_find?_iff.mpr (.inr ⟨found, (List.mem_filter.mp hfound).1, hbelow⟩)
  · intro hsome
    rcases isSome_find?_iff.mp hsome with hwork | ⟨found, hfound, hbelow⟩
    · exact .inl hwork
    · by_cases heq : found.1 = place
      · exact .inr ⟨_, List.mem_cons_self .., heq ▸ hbelow⟩
      · exact .inr ⟨found, List.mem_cons_of_mem _ (List.mem_filter.mpr ⟨hfound, bne_iff_ne.mpr heq⟩), hbelow⟩

/-- What stands elsewhere stays. -/
theorem find?_put_ne {entry : Entry} (h : d.HasParents place) {other : Place} (hne : other ≠ place) :
    (d.put place entry).find? other = d.find? other := by
  have hentry : entry? (d.put place entry) other = d.entry? other := by
    rw [put, entry?, List.lookup_cons, beq_eq_false_iff_ne.mpr hne]
    exact lookup_filter_ne hne
  cases hheld : d.entry? other with
  | some held => rw [find?_of_listed hheld, find?_of_listed (hentry.trans hheld)]
  | none =>
    rw [find?_of_unlisted hheld, find?_of_unlisted (hentry.trans hheld),
      Bool.eq_iff_iff.mpr (isSome_find?_put h hne)]

/-- A walk does not go through a place where a file can be written. -/
theorem walk_put {written : Place} (hwritable : d.Writable written) (content : List UInt8) {start : Place}
    {names : List String} (h : d.walk start names = .ok place) :
    (d.put written (.file content)).walk start names = .ok place := by
  induction names generalizing start with
  | nil => exact h
  | cons name rest ih =>
    obtain ⟨hdirectory, next, hnext, -, hsame⟩ := walk_cons h
    have hne : start ≠ written := by
      rintro rfl
      exact hwritable.notDirectory hdirectory
    rw [hsame _ ((find?_put_ne hwritable.hasParents hne).trans hdirectory)]
    exact ih hnext

/-! ### Any number of writes -/

/-- A disk after files have been written at places in `own`: all else is as it was. -/
structure Follows (own : Place → Prop) (d d' : Disk) : Prop where
  workingDirectory : d'.workingDirectory = d.workingDirectory
  walk : ∀ {start names place}, d.walk start names = .ok place → d'.walk start names = .ok place
  find? : ∀ {place}, ¬ own place → d'.find? place = d.find? place
  file : ∀ {place content}, d.find? place = some (.file content) → ∃ held, d'.find? place = some (.file held)
  notDirectory : ∀ {place}, d.find? place ≠ some .directory → d'.find? place ≠ some .directory

namespace Follows
variable {own : Place → Prop} {d'' : Disk}

theorem refl (own : Place → Prop) (d : Disk) : Follows own d d := ⟨rfl, id, fun _ => rfl, fun h => ⟨_, h⟩, id⟩

theorem trans (h : Follows own d d') (h' : Follows own d' d'') : Follows own d d'' where
  workingDirectory := h'.workingDirectory.trans h.workingDirectory
  walk hwalk := h'.walk (h.walk hwalk)
  find? hplace := (h'.find? hplace).trans (h.find? hplace)
  file hfile := by
    obtain ⟨held, hheld⟩ := h.file hfile
    exact h'.file hheld
  notDirectory hnot := h'.notDirectory (h.notDirectory hnot)

theorem mono {larger : Place → Prop} (h : Follows own d d') (hle : ∀ place, own place → larger place) :
    Follows larger d d' :=
  { h with find? := fun hplace => h.find? fun hown => hplace (hle _ hown) }

theorem put (hwritable : d.Writable place) (hown : own place) (content : List UInt8) :
    Follows own d (d.put place (.file content)) where
  workingDirectory := rfl
  walk hwalk := walk_put hwritable content hwalk
  find? hother := find?_put_ne hwritable.hasParents fun heq => hother (heq ▸ hown)
  file {other held} hfile := by
    by_cases heq : other = place
    · exact ⟨content, by rw [heq, Disk.find?_put]⟩
    · exact ⟨held, (find?_put_ne hwritable.hasParents heq).trans hfile⟩
  notDirectory {other} hnot := by
    by_cases heq : other = place
    · rw [heq, Disk.find?_put]
      simp
    · rwa [find?_put_ne hwritable.hasParents heq]

/-- A path leads where it led. -/
theorem locate (h : Follows own d d') (hlocate : d.locate path = .ok place) : d'.locate path = .ok place := by
  obtain ⟨start, -, hwalk, hsame⟩ := locate_eq_ok hlocate
  rw [hsame d' h.workingDirectory]
  exact h.walk hwalk

/-- A walk goes through directories only, and no directory has come or gone. -/
theorem walk_iff (h : Follows own d d') {start : Place} {names : List String} :
    d'.walk start names = .ok place ↔ d.walk start names = .ok place := by
  refine ⟨fun hwalk => ?_, h.walk⟩
  induction names generalizing start with
  | nil => exact hwalk
  | cons name rest ih =>
    obtain ⟨hdirectory, next, hnext, -, hsame⟩ := walk_cons hwalk
    have hbefore : d.find? start = some .directory :=
      Decidable.not_not.mp fun hnot => h.notDirectory hnot hdirectory
    rw [hsame d hbefore]
    exact ih hnext

theorem locate_iff (h : Follows own d d') : d'.locate path = .ok place ↔ d.locate path = .ok place := by
  refine ⟨fun hlocate => ?_, h.locate⟩
  obtain ⟨start, -, hwalk, hsame⟩ := locate_eq_ok hlocate
  rw [hsame d h.workingDirectory.symm]
  exact h.walk_iff.mp hwalk

/-- A file that is not written is there if it was, and holds what it held. -/
theorem read_iff (h : Follows own d d') (hother : ∀ place, d.locate path = .ok place → ¬ own place)
    {content : List UInt8} : d'.read path = .ok content ↔ d.read path = .ok content := by
  rw [read_eq_ok_iff, read_eq_ok_iff]
  constructor
  · rintro ⟨place, hlocate, hfind, hname⟩
    have hbefore := h.locate_iff.mp hlocate
    exact ⟨place, hbefore, by rw [← h.find? (hother place hbefore), hfind], hname⟩
  · rintro ⟨place, hlocate, hfind, hname⟩
    exact ⟨place, h.locate hlocate, by rw [h.find? (hother place hlocate), hfind], hname⟩

/-- What could be written can be written. -/
theorem target (h : Follows own d d') (htarget : d.target path = .ok place) : d'.target path = .ok place := by
  obtain ⟨hlocate, hnot, hfile⟩ := target_eq_ok_iff.mp htarget
  exact target_eq_ok_iff.mpr ⟨h.locate hlocate, h.notDirectory hnot, hfile⟩

/-- What could be read can be read, and is as it was unless it was written. -/
theorem read (h : Follows own d d') {content : List UInt8} (hread : d.read path = .ok content) :
    ∃ held, d'.read path = .ok held ∧ ((∀ place, d.locate path = .ok place → ¬ own place) → held = content) := by
  obtain ⟨place, hlocate, hfind, hfile⟩ := read_eq_ok_iff.mp hread
  obtain ⟨held, hheld⟩ := h.file hfind
  refine ⟨held, read_eq_ok_iff.mpr ⟨place, h.locate hlocate, hheld, hfile⟩, fun hother => ?_⟩
  rw [h.find? (hother place hlocate), hfind] at hheld
  cases hheld
  rfl

/-- Adding to a file writes it. -/
theorem append {content : List UInt8} (hwrite : d.append path content = .ok d')
    (hown : ∀ place, d.target path = .ok place → own place) : Follows own d d' := by
  unfold Disk.append at hwrite
  cases htarget : d.target path with
  | error fault =>
    rw [htarget] at hwrite
    cases hwrite
  | ok place =>
    rw [htarget] at hwrite
    cases hwrite
    dsimp only
    split <;> exact .put (.of_target htarget) (hown place htarget) _

end Follows

/-- A file that can be written is written. -/
theorem write_of_target (h : d.target path = .ok place) (content : List UInt8) :
    d.write path content = .ok (d.put place (.file content)) := by
  rw [write, h]
  rfl

/-- What the file at a place holds; nothing, if there is none. -/
def contentAt (d : Disk) (place : Place) : List UInt8 :=
  match d.find? place with
  | some (.file content) => content
  | _ => []

theorem contentAt_of_file {content : List UInt8} (h : d.find? place = some (.file content)) :
    d.contentAt place = content := by
  rw [contentAt, h]

theorem append_of_target (h : d.target path = .ok place) (content : List UInt8) :
    d.append path content = .ok (d.put place (.file (d.contentAt place ++ content))) := by
  rw [append, h]
  simp only [Except.map]
  cases hentry : d.entry? place with
  | none =>
    have hnone : d.contentAt place = [] := by
      rw [contentAt, find?_of_unlisted hentry]
      split <;> simp_all
    rw [hnone]
    rfl
  | some held =>
    rw [contentAt, find?_of_listed hentry]
    cases held with
    | file old => rfl
    | directory => rfl

theorem target_of_append {content : List UInt8} (h : d.append path content = .ok d') :
    ∃ place, d.target path = .ok place := by
  rw [append] at h
  cases htarget : d.target path with
  | error fault =>
    rw [htarget] at h
    cases h
  | ok place => exact ⟨place, rfl⟩

/-- To add nothing to a file makes it, if it is missing, and leaves all files as they are. -/
theorem find?_append_nil (happend : d.append path [] = .ok d') {content : List UInt8}
    (h : d.find? place = some (.file content)) : d'.find? place = some (.file content) := by
  obtain ⟨target, htarget⟩ := target_of_append happend
  obtain rfl := Except.ok.inj ((append_of_target htarget []).symm.trans happend)
  by_cases hplace : place = target
  · rw [hplace, find?_put, ← hplace, contentAt_of_file h, List.append_nil]
  · rw [find?_put_ne (HasParents.locate (target_eq_ok_iff.mp htarget).1) hplace, h]

/-! ### Two disks -/

/-- Two disks that differ at most in what the files at places in `apart` hold. -/
structure Matches (apart : Place → Prop) (d e : Disk) : Prop where
  workingDirectory : e.workingDirectory = d.workingDirectory
  find? : ∀ {place}, ¬ apart place → e.find? place = d.find? place
  files : ∀ {place}, apart place →
    (∃ content, d.find? place = some (.file content)) ∧ ∃ content, e.find? place = some (.file content)

namespace Matches
variable {apart : Place → Prop} {e : Disk}

/-- A path leads to the same place on both disks, or fails for the same reason. -/
theorem walk (h : Matches apart d e) (start : Place) (names : List String) :
    e.walk start names = d.walk start names := by
  induction names generalizing start with
  | nil => rfl
  | cons name rest ih =>
    rw [Disk.walk, Disk.walk]
    by_cases hstart : apart start
    · obtain ⟨⟨a, ha⟩, b, hb⟩ := h.files hstart
      rw [ha, hb]
    · simp only [h.find? hstart, ih]

theorem locate (h : Matches apart d e) (path : String) : e.locate path = d.locate path := by
  simp only [Disk.locate, h.walk, h.workingDirectory]

theorem target (h : Matches apart d e) (path : String) : e.target path = d.target path := by
  rw [Disk.target, Disk.target, h.locate]
  cases d.locate path with
  | error problem => rfl
  | ok place =>
    by_cases hplace : apart place
    · obtain ⟨⟨a, ha⟩, b, hb⟩ := h.files hplace
      simp only [ha, hb]
    · simp only [h.find? hplace]

/-- A file is read alike, unless it holds different things. -/
theorem read (h : Matches apart d e)
    (hpath : ∀ place, d.locate path = .ok place → apart place → namesDirectory path = true) :
    e.read path = d.read path := by
  rw [Disk.read, Disk.read, h.locate]
  cases hlocate : d.locate path with
  | error problem => rfl
  | ok place =>
    by_cases hplace : apart place
    · obtain ⟨⟨a, ha⟩, b, hb⟩ := h.files hplace
      simp only [ha, hb, hpath place hlocate hplace, if_true]
    · simp only [h.find? hplace]

/-- A file that is written on both disks is apart afterwards if different things are written. -/
theorem put (h : Matches apart d e) {path : String} (htarget : d.target path = .ok place) {a b : List UInt8}
    {later : Place → Prop} (hsame : ¬ later place → b = a)
    (hlater : ∀ other, other ≠ place → (later other ↔ apart other)) :
    Matches later (d.put place (.file a)) (e.put place (.file b)) := by
  have hd : d.HasParents place := .locate (target_eq_ok_iff.mp htarget).1
  have he : e.HasParents place := .locate (target_eq_ok_iff.mp ((h.target path).trans htarget)).1
  refine ⟨h.workingDirectory, fun {other} hother => ?_, fun {other} hother => ?_⟩
  · by_cases heq : other = place
    · rw [heq, Disk.find?_put, Disk.find?_put, hsame (heq ▸ hother)]
    · rw [find?_put_ne hd heq, find?_put_ne he heq]
      exact h.find? fun hapart => hother ((hlater other heq).mpr hapart)
  · by_cases heq : other = place
    · rw [heq]
      exact ⟨⟨a, Disk.find?_put ..⟩, b, Disk.find?_put ..⟩
    · rw [find?_put_ne hd heq, find?_put_ne he heq]
      exact h.files ((hlater other heq).mp hother)

/-- What is added to a file on both disks keeps them matching. -/
theorem append (h : Matches apart d e) (path : String) (content : List UInt8) :
    (∃ fault, d.append path content = .error fault ∧ e.append path content = .error fault) ∨
      ∃ d' e', d.append path content = .ok d' ∧ e.append path content = .ok e' ∧ Matches apart d' e' := by
  cases htarget : d.target path with
  | error fault =>
    refine .inl ⟨fault, ?_, ?_⟩
    · rw [Disk.append, htarget]
      rfl
    · rw [Disk.append, h.target, htarget]
      rfl
  | ok place =>
    refine .inr ⟨_, _, append_of_target htarget content, append_of_target ((h.target path).trans htarget) content, ?_⟩
    refine h.put htarget (fun hplace => ?_) fun _ _ => Iff.rfl
    rw [contentAt, contentAt, h.find? hplace]

end Matches
end TapeMachine.Disk
