import ChunkMachine.Debugger.History
import ChunkMachine.Proofs.Lines

/-!
# The history between sessions

The history is written to its file as lines, and the next session reads the lines of that file. The
reader knows more line ends than the one that the writer puts between the entries, and it strips every
line and leaves blank ones out. An entry is stripped and not blank when it is kept, so all that can come
between the two is a line end within an entry: such an entry comes back as several.

## What is proved

* `Files.read_of_write`: what was written to a file is read back, wherever the path leads.
* `cleaned_unlines`: the lines of a history file are the lines of its entries.
* `appendAll_neat`, `appendAll_filed`: what holds of a history and of its file after any lines.
* `reopened_entries`: what the next session finds, and that this is the history just if no entry has a
  line end in it.
-/

namespace ChunkMachine

/-! ### Files that are written -/

namespace Files

theorem at?_put_self {f : Files} {place : List String} {node : Node}
    (h : f.isDirectoryAt place = false) : (f.put place node).at? place = some node := by
  have hbase : place.isPrefixOf f.base = false := by
    rw [Bool.eq_false_iff]
    intro hbase
    simp [isDirectoryAt, at?, hbase] at h
  have hothers : (f.nodes.filter (·.1 != place)).lookup place = none := by
    rw [List.lookup_eq_none_iff]
    intro x hx
    have hne := (List.mem_filter.1 hx).2
    rwa [bne_comm]
  simp [at?, put, hbase, List.lookup_append, hothers]

theorem lookup_filter_ne {l : List (List String × Node)} {place place' : List String}
    (h : place' ≠ place) : (l.filter (·.1 != place)).lookup place' = l.lookup place' := by
  induction l with
  | nil => rfl
  | cons x l ih =>
    obtain ⟨names, node⟩ := x
    by_cases hnames : names = place
    · subst hnames
      simp [List.lookup_cons, beq_false_of_ne h, ih]
    · simp [hnames, List.lookup_cons, ih]

theorem at?_put_of_ne {f : Files} {place place' : List String} {node : Node}
    (h : place' ≠ place) : (f.put place node).at? place' = f.at? place' := by
  simp [at?, put, List.lookup_append, lookup_filter_ne h, List.lookup_cons, beq_false_of_ne h]

theorem at?_put_of_directory {f : Files} {place place' : List String} {node : Node}
    (h : f.isDirectoryAt place = false) (h' : f.isDirectoryAt place' = true) :
    (f.put place node).at? place' = f.at? place' := by
  refine at?_put_of_ne ?_
  rintro rfl
  rw [h] at h'
  cases h'

theorem isDirectoryAt_of_child {f : Files} {place place' : List String} {name : String}
    (h : f.child place name = .ok place') : f.isDirectoryAt place = true := by
  unfold child at h
  split at h
  · cases h
  · rename_i hdirectory
    simpa using hdirectory

theorem child_congr {f g : Files} {place : List String} (h : f.at? place = g.at? place)
    (name : String) : f.child place name = g.child place name := by
  unfold child isDirectoryAt
  rw [h]

theorem enter_eq_ok_iff {f : Files} {place place' : List String} {name : String} :
    f.enter place name = .ok place' ↔ f.child place name = .ok place' ∧ (f.at? place').isSome := by
  unfold enter
  cases hchild : f.child place name with
  | error fault => simp [bind, Except.bind]
  | ok there =>
    simp only [bind, Except.bind, Except.ok.injEq]
    constructor
    · intro h
      split at h
      · rename_i hthere
        cases h
        exact ⟨rfl, hthere⟩
      · cases h
    · rintro ⟨rfl, hthere⟩
      rw [if_pos hthere]

/-- A walk that leads to a directory starts at one. -/
theorem isDirectoryAt_of_walk {f : Files} {names : List String} {place place' : List String}
    (h : names.foldlM f.enter place = .ok place') (h' : f.isDirectoryAt place' = true) :
    f.isDirectoryAt place = true := by
  cases names with
  | nil =>
    cases h
    exact h'
  | cons name names =>
    rw [List.foldlM_cons] at h
    cases hnext : f.enter place name with
    | error fault =>
      rw [hnext] at h
      cases h
    | ok next => exact isDirectoryAt_of_child (enter_eq_ok_iff.1 hnext).1

/-- A walk from directory to directory is the same where the directories are. -/
theorem walk_congr {f g : Files} (hsame : ∀ d, f.isDirectoryAt d = true → g.at? d = f.at? d)
    (names : List String) : ∀ {place place' : List String},
      names.foldlM f.enter place = .ok place' → f.isDirectoryAt place' = true →
      names.foldlM g.enter place = .ok place' := by
  induction names with
  | nil => intro place place' h _; exact h
  | cons name names ih =>
    intro place place' h hlast
    rw [List.foldlM_cons] at h ⊢
    cases hnext : f.enter place name with
    | error fault =>
      rw [hnext] at h
      cases h
    | ok next =>
      rw [hnext] at h
      obtain ⟨hchild, hthere⟩ := enter_eq_ok_iff.1 hnext
      have hrest : names.foldlM f.enter next = .ok place' := h
      have hplace := hsame place (isDirectoryAt_of_child hchild)
      have hnext' := hsame next (isDirectoryAt_of_walk hrest hlast)
      have henter : g.enter place name = .ok next := by
        rw [enter_eq_ok_iff, child_congr hplace, hnext']
        exact ⟨hchild, hthere⟩
      rw [henter]
      exact ih hrest hlast

theorem isDirectoryAt_startOf (f : Files) (p : Path) : f.isDirectoryAt (f.startOf p) = true := by
  unfold startOf isDirectoryAt at?
  split <;> simp

/-- What a write does: the path leads to a place in a directory, and the file is put there. -/
theorem write_eq_ok {f f' : Files} {p : Path} {bytes : Bytes} (h : f.write p bytes = .ok f') :
    ∃ front name directory place, admissible p = .ok () ∧ p.names = front ++ [name] ∧
      front.foldlM f.enter (f.startOf p) = .ok directory ∧
      f.child directory name = .ok place ∧ f.isDirectoryAt place = false ∧
      f' = f.put place (.file bytes) := by
  unfold write findSlot at h
  cases hadmissible : admissible p with
  | error fault =>
    simp only [hadmissible, bind, Except.bind, failingAt] at h
    cases h
  | ok _ =>
    cases hname : p.names.getLast? with
    | none =>
      simp only [hadmissible, hname, bind, Except.bind, isDirectoryAt_startOf, if_true, failingAt] at h
      cases h
    | some name =>
      obtain ⟨front, hfront⟩ := List.getLast?_eq_some_iff.1 hname
      have hdropLast : p.names.dropLast = front := by rw [hfront, List.dropLast_concat]
      rw [hdropLast] at h
      cases hdirectory : front.foldlM f.enter (f.startOf p) with
      | error fault =>
        simp only [hadmissible, hname, hdirectory, bind, Except.bind, failingAt] at h
        cases h
      | ok directory =>
        cases hplace : f.child directory name with
        | error fault =>
          simp only [hadmissible, hname, hdirectory, hplace, bind, Except.bind, failingAt] at h
          cases h
        | ok place =>
          simp only [hadmissible, hname, hdirectory, hplace, bind, Except.bind] at h
          split at h
          · cases h
          · rename_i hfree
            cases h
            exact ⟨front, name, directory, place, rfl, hfront, hdirectory, hplace,
              by simpa using hfree, rfl⟩

/-- **What was written is read back.** -/
theorem read_of_write {f f' : Files} {p : Path} {bytes : Bytes} (h : f.write p bytes = .ok f') :
    f'.read p = .ok bytes := by
  obtain ⟨front, name, directory, place, hadmissible, hnames, hwalk, hchild, hfree, rfl⟩ :=
    write_eq_ok h
  have hsame : ∀ d, f.isDirectoryAt d = true →
      (f.put place (.file bytes)).at? d = f.at? d := fun d hd => at?_put_of_directory hfree hd
  have hdirectory := isDirectoryAt_of_child hchild
  have hplace : (f.put place (.file bytes)).at? place = some (.file bytes) := at?_put_self hfree
  have henter : (f.put place (.file bytes)).enter directory name = .ok place := by
    rw [enter_eq_ok_iff, child_congr (hsame directory hdirectory), hplace]
    exact ⟨hchild, rfl⟩
  have hstart : (f.put place (.file bytes)).startOf p = f.startOf p := rfl
  have hfind : (f.put place (.file bytes)).find p = .ok place := by
    unfold find
    rw [hadmissible, hnames, List.foldlM_append, hstart]
    simp only [bind, Except.bind]
    rw [walk_congr hsame _ hwalk hdirectory]
    simp [henter, bind, Except.bind, pure, Except.pure]
  unfold read
  rw [hfind]
  simp only [bind, Except.bind, hplace, failingAt]

end Files

/-! ### Texts in bytes -/

theorem toList_loop (bytes : ByteArray) (i : Nat) (read : List UInt8) :
    ByteArray.toList.loop bytes i read = read.reverse ++ bytes.data.toList.drop i := by
  fun_induction ByteArray.toList.loop bytes i read with
  | case1 i read hi ih =>
    have hsize : i < bytes.data.toList.length := by simpa using hi
    rw [ih, List.drop_eq_getElem_cons hsize]
    simp [ByteArray.get!, getElem!_pos, hi]
  | case2 i read hi =>
    have hsize : bytes.data.toList.length ≤ i := by simpa using hi
    simp [List.drop_eq_nil_of_le hsize]

theorem toArray_encodeText (s : String) : (encodeText s).toArray = s.toByteArray.data := by
  simp [encodeText, ByteArray.toList, toList_loop]

theorem decodeText_encodeText (s : String) :
    Debugger.History.decodeText (encodeText s) = some s := by
  have hbytes : (⟨(encodeText s).toArray⟩ : ByteArray) = s.toByteArray := by rw [toArray_encodeText]
  rw [Debugger.History.decodeText, hbytes, String.fromUTF8?, dif_pos s.isValidUTF8]
  rfl

namespace Debugger.History

/-! ### Entries -/

theorem length_lastOf_le {α : Type} (n : Nat) (l : List α) : (lastOf n l).length ≤ n := by
  rw [lastOf, List.length_drop]
  omega

theorem lastOf_of_length_le {α : Type} {n : Nat} {l : List α} (h : l.length ≤ n) : lastOf n l = l := by
  rw [lastOf, Nat.sub_eq_zero_of_le h, List.drop_zero]

theorem mem_of_mem_lastOf {α : Type} {n : Nat} {l : List α} {a : α} (h : a ∈ lastOf n l) : a ∈ l :=
  List.mem_of_mem_drop h

/-- What holds of a history at any time: its entries are neither blank nor surrounded by white space,
and there are no more of them than the limit allows. -/
structure Neat (h : History) : Prop where
  tidy : ∀ entry ∈ h.entries, Text.Tidy entry
  length_le : h.entries.length ≤ h.limit
  limit_pos : 0 < h.limit

theorem tidy_of_mem_cleaned {text entry : String} (h : entry ∈ cleaned text) : Text.Tidy entry := by
  obtain ⟨hentry, hne⟩ := List.mem_filter.1 h
  obtain ⟨line, -, rfl⟩ := List.mem_map.1 hentry
  exact Text.tidy_strip (by simpa using hne)

theorem unbroken_of_mem_cleaned {text entry : String} (h : entry ∈ cleaned text) :
    Text.Unbroken entry := by
  obtain ⟨line, hline, rfl⟩ := List.mem_map.1 (List.mem_filter.1 h).1
  exact (Text.unbroken_of_mem_lines hline).strip

/-- An entry without line ends is its own only line. -/
theorem cleaned_of_unbroken {entry : String} (htidy : Text.Tidy entry) (h : Text.Unbroken entry) :
    cleaned entry = [entry] := by
  have hne : (entry != "") = true := by simpa using htidy.ne_empty
  simp [cleaned, Text.lines_of_unbroken htidy.ne_empty h, htidy.strip_eq, hne]

/-- A file that holds entries, each followed by a line feed, has the lines of these entries. -/
theorem cleaned_unlines {entries : List String} (h : ∀ entry ∈ entries, Text.Tidy entry) :
    cleaned (unlines entries) = entries.flatMap cleaned := by
  have hlines : Text.lines (unlines entries) = entries.flatMap Text.lines := by
    induction entries with
    | nil => rfl
    | cons entry entries ih =>
      have hunlines : unlines (entry :: entries) = entry ++ "\n" ++ unlines entries := by
        simp [unlines, String.join_cons]
      rw [hunlines, Text.lines_append (h entry List.mem_cons_self).getLast, List.flatMap_cons,
        ih fun e he => h e (List.mem_cons_of_mem entry he)]
  simp only [cleaned, hlines, List.map_flatMap, List.filter_flatMap]
  rfl

/-! ### Keeping lines -/

theorem append_of_keeps {h : History} {line : String} (hkeeps : h.keeps (Text.strip line) = true)
    (files : Files) :
    h.append files line = (h.add (Text.strip line), (h.add (Text.strip line)).persist files) := by
  simp only [append, hkeeps, if_true]

theorem append_of_not_keeps {h : History} {line : String}
    (hkeeps : h.keeps (Text.strip line) = false) (files : Files) :
    h.append files line = (h, files, []) := by
  simp only [append, hkeeps, Bool.false_eq_true, if_false]

theorem add_neat {h : History} (hneat : h.Neat) {line : String}
    (hkeeps : h.keeps (Text.strip line) = true) : (h.add (Text.strip line)).Neat where
  tidy := by
    intro entry hentry
    rcases List.mem_append.1 (mem_of_mem_lastOf hentry) with hentry | hentry
    · exact hneat.tidy entry hentry
    · obtain rfl := List.mem_singleton.1 hentry
      rw [keeps, Bool.and_eq_true] at hkeeps
      exact Text.tidy_strip (by simpa using hkeeps.1)
  length_le := length_lastOf_le _ _
  limit_pos := hneat.limit_pos

/-- Keeping a line changes nothing but the entries, and leaves them neat. -/
theorem append_neat {h : History} (hneat : h.Neat) (files : Files) (line : String) :
    (h.append files line).1.Neat ∧ (h.append files line).1.path = h.path ∧
      (h.append files line).1.limit = h.limit := by
  cases hkeeps : h.keeps (Text.strip line) with
  | true =>
    rw [append_of_keeps hkeeps]
    exact ⟨add_neat hneat hkeeps, rfl, rfl⟩
  | false =>
    rw [append_of_not_keeps hkeeps]
    exact ⟨hneat, rfl, rfl⟩

/-- Keep lines one after the other. -/
def appendAll (files : Files) (h : History) : List String → History × Files × List LogRecord
  | [] => (h, files, [])
  | line :: lines =>
    let next := h.append files line
    let last := appendAll next.2.1 next.1 lines
    (last.1, last.2.1, next.2.2 ++ last.2.2)

theorem appendAll_cons (files : Files) (h : History) (line : String) (lines : List String) :
    h.appendAll files (line :: lines) =
      (((h.append files line).1.appendAll (h.append files line).2.1 lines).1,
        ((h.append files line).1.appendAll (h.append files line).2.1 lines).2.1,
        (h.append files line).2.2 ++
          ((h.append files line).1.appendAll (h.append files line).2.1 lines).2.2) := rfl

theorem appendAll_neat (lines : List String) : ∀ {files : Files} {h : History}, h.Neat →
    (h.appendAll files lines).1.Neat ∧ (h.appendAll files lines).1.path = h.path ∧
      (h.appendAll files lines).1.limit = h.limit := by
  induction lines with
  | nil => intro files h hneat; exact ⟨hneat, rfl, rfl⟩
  | cons line lines ih =>
    intro files h hneat
    obtain ⟨hfirst, hpath, hlimit⟩ := append_neat hneat files line
    obtain ⟨hrest, hpath', hlimit'⟩ := @ih (h.append files line).2.1 _ hfirst
    rw [appendAll_cons]
    exact ⟨hrest, hpath'.trans hpath, hlimit'.trans hlimit⟩

/-! ### The history file -/

/-- The history stands in its file, each entry followed by a line feed. -/
def Filed (files : Files) (h : History) : Prop :=
  ∃ path, h.path = some path ∧ files.read path = .ok (encodeText (unlines h.entries))

theorem intercalate_newline {l : List String} (hl : l ≠ []) :
    "\n".intercalate l ++ "\n" = unlines l := by
  induction l with
  | nil => exact absurd rfl hl
  | cons s l ih =>
    cases l with
    | nil => simp [unlines, String.join_cons]
    | cons t l =>
      have hrest := ih (List.cons_ne_nil t l)
      rw [String.intercalate_cons_cons, String.append_assoc, hrest]
      simp [unlines, String.join_cons]

/-- A history that is written without a warning stands in its file. -/
theorem persist_filed {files : Files} {h : History} {path : Path} (hpath : h.path = some path)
    (hne : h.entries ≠ []) (hlog : (h.persist files).2 = []) : Filed (h.persist files).1 h := by
  unfold persist at hlog ⊢
  simp only [hpath] at hlog ⊢
  rcases hdirectories : files.ensureDirectories path.parent with ⟨files₁, _ | e⟩
  · simp only [hdirectories] at hlog ⊢
    cases hwrite : files₁.write path h.contents with
    | error e =>
      simp only [hwrite] at hlog
      cases hlog
    | ok files₂ =>
      refine ⟨path, hpath, ?_⟩
      rw [Files.read_of_write hwrite, contents, intercalate_newline hne]
  · simp only [hdirectories] at hlog
    cases hlog

theorem add_entries_ne_nil {h : History} (hneat : h.Neat) (text : String) :
    (h.add text).entries ≠ [] := by
  have hpos := hneat.limit_pos
  rw [add, lastOf, ← List.length_pos_iff, List.length_drop, List.length_append, List.length_singleton]
  omega

/-- Some of the lines is kept. -/
def KeepsOne (files : Files) (h : History) (lines : List String) : Prop :=
  ∃ before line after, lines = before ++ line :: after ∧
    (h.appendAll files before).1.keeps (Text.strip line) = true

/-- **The history stands in its file** after lines of which one was kept, if no write failed. A line
that is not kept changes neither. -/
theorem appendAll_filed {path : Path} (lines : List String) : ∀ {files : Files} {h : History}, h.Neat →
    h.path = some path → (h.appendAll files lines).2.2 = [] →
    Filed files h ∨ h.KeepsOne files lines →
    Filed (h.appendAll files lines).2.1 (h.appendAll files lines).1 := by
  induction lines with
  | nil =>
    rintro files h - - - (hfiled | ⟨before, line, after, hlines, -⟩)
    · exact hfiled
    · simp at hlines
  | cons line lines ih =>
    intro files h hneat hpath hlog hstart
    obtain ⟨hfirst, hfirstPath, -⟩ := append_neat hneat files line
    simp only [appendAll_cons] at hlog ⊢
    obtain ⟨hlog₁, hlog₂⟩ := List.append_eq_nil_iff.1 hlog
    refine ih hfirst (hfirstPath.trans hpath) hlog₂ ?_
    cases hkeeps : h.keeps (Text.strip line) with
    | true =>
      rw [append_of_keeps hkeeps] at hlog₁ ⊢
      exact .inl (persist_filed hpath (add_entries_ne_nil hneat _) hlog₁)
    | false =>
      rw [append_of_not_keeps hkeeps]
      rcases hstart with hfiled | ⟨before, kept, after, hlines, hkept⟩
      · exact .inl hfiled
      · cases before with
        | nil =>
          -- the line that is kept cannot be the first one
          obtain ⟨rfl, rfl⟩ := List.cons.inj hlines
          rw [appendAll, hkeeps] at hkept
          cases hkept
        | cons first before =>
          obtain ⟨rfl, rfl⟩ := List.cons.inj hlines
          rw [appendAll_cons, append_of_not_keeps hkeeps] at hkept
          exact .inr ⟨before, kept, after, rfl, hkept⟩

/-- An entry was there before or is one of the lines. -/
theorem mem_entries_appendAll (lines : List String) : ∀ {files : Files} {h : History} {entry : String},
    entry ∈ (h.appendAll files lines).1.entries →
    entry ∈ h.entries ∨ ∃ line ∈ lines, entry = Text.strip line := by
  induction lines with
  | nil => intro files h entry hentry; exact .inl hentry
  | cons line lines ih =>
    intro files h entry hentry
    simp only [appendAll_cons] at hentry
    rcases ih hentry with hentry | ⟨later, hlater, rfl⟩
    · cases hkeeps : h.keeps (Text.strip line) with
      | true =>
        rw [append_of_keeps hkeeps] at hentry
        rcases List.mem_append.1 (mem_of_mem_lastOf hentry) with hentry | hentry
        · exact .inl hentry
        · exact .inr ⟨line, List.mem_cons_self, List.mem_singleton.1 hentry⟩
      | false =>
        rw [append_of_not_keeps hkeeps] at hentry
        exact .inl hentry
    · exact .inr ⟨later, List.mem_cons_of_mem line hlater, rfl⟩

/-! ### Opening the history -/

theorem limitOf_pos (limit : Int) : 0 < limitOf limit := by
  unfold limitOf
  omega

theorem openAt_of_ne_empty (w : Surroundings) {name : String} (hname : name ≠ "") (limit : Int) :
    openAt w (some name) limit =
      match (Path.ofString name).expandHome w.homes with
      | .error fault => .error (.ofHome fault)
      | .ok path => load w.files { limit := limitOf limit, path := some path } path := by
  unfold openAt
  split
  · rename_i hnone
    cases hnone
  · rename_i hempty
    cases hempty
    exact absurd rfl hname
  · rename_i hsome
    cases hsome
    rfl

/-- What is loaded is neat, and none of it has a line end in it. -/
theorem load_neat {files : Files} {path : Path} {h h' : History} {log : List LogRecord}
    (hempty : h.entries = []) (hpos : 0 < h.limit) (hload : load files h path = .ok (h', log)) :
    h'.Neat ∧ h'.path = h.path ∧ h'.limit = h.limit ∧ ∀ entry ∈ h'.entries, Text.Unbroken entry := by
  have hself : h.Neat ∧ h.path = h.path ∧ h.limit = h.limit ∧ ∀ entry ∈ h.entries, Text.Unbroken entry := by
    refine ⟨⟨?_, ?_, hpos⟩, rfl, rfl, ?_⟩ <;> simp [hempty]
  unfold load at hload
  split at hload
  · split at hload
    · cases hload
      refine ⟨⟨?_, length_lastOf_le _ _, hpos⟩, rfl, rfl, ?_⟩
      · exact fun entry hentry => tidy_of_mem_cleaned (mem_of_mem_lastOf hentry)
      · exact fun entry hentry => unbroken_of_mem_cleaned (mem_of_mem_lastOf hentry)
    · cases hload
  · split at hload
    · cases hload
      exact hself
    · cases hload
    · cases hload
      exact hself

/-- A history that stands in its file is loaded as the lines of its entries. -/
theorem load_of_read {files : Files} {path : Path} {entries : List String}
    (htidy : ∀ entry ∈ entries, Text.Tidy entry)
    (hread : files.read path = .ok (encodeText (unlines entries))) (h : History) :
    load files h path = .ok ({ h with entries := lastOf h.limit (entries.flatMap cleaned) }, []) := by
  simp only [load, hread, decodeText_encodeText, cleaned_unlines htidy]

theorem flatMap_cleaned_of_unbroken {entries : List String} (htidy : ∀ entry ∈ entries, Text.Tidy entry)
    (h : ∀ entry ∈ entries, Text.Unbroken entry) : entries.flatMap cleaned = entries := by
  induction entries with
  | nil => rfl
  | cons entry entries ih =>
    rw [List.flatMap_cons, cleaned_of_unbroken (htidy entry List.mem_cons_self) (h entry List.mem_cons_self),
      ih (fun e he => htidy e (List.mem_cons_of_mem entry he)) fun e he => h e (List.mem_cons_of_mem entry he)]
    rfl

/-- The entries are what is loaded just if no entry has a line end in it. -/
theorem Neat.reloaded_iff {h : History} (hneat : h.Neat) :
    lastOf h.limit (h.entries.flatMap cleaned) = h.entries ↔
      ∀ entry ∈ h.entries, Text.Unbroken entry := by
  constructor
  · intro hsame entry hentry
    rw [← hsame] at hentry
    obtain ⟨e, -, hline⟩ := List.mem_flatMap.1 (mem_of_mem_lastOf hentry)
    exact unbroken_of_mem_cleaned hline
  · intro hunbroken
    rw [flatMap_cleaned_of_unbroken hneat.tidy hunbroken, lastOf_of_length_le hneat.length_le]

/-- **What becomes of a history when it is opened again.** Let a history be opened on a path, from a file
that can be read or from none, let any lines be given to it of which one is kept, and let no write fail.
If it is then opened on the same path with the same limit, its entries are the lines of the entries that
there were, as many of the last as the limit allows. These are the same entries just if none of them has a
line end in it. Only a line of this session can have one, so the history survives if no line has. -/
theorem reopened_entries {w : Surroundings} {name : String} {limit : Int} {h h' : History}
    {log : List LogRecord} {lines : List String} {files : Files} (hname : name ≠ "")
    (hopen : openAt w (some name) limit = .ok (h, log))
    (happend : h.appendAll w.files lines = (h', files, [])) (hkept : h.KeepsOne w.files lines) :
    openAt { w with files } (some name) limit =
      .ok ({ h' with entries := lastOf h'.limit (h'.entries.flatMap cleaned) }, []) ∧
    (openAt { w with files } (some name) limit = .ok (h', []) ↔
      ∀ entry ∈ h'.entries, Text.Unbroken entry) ∧
    ((∀ line ∈ lines, Text.Unbroken (Text.strip line)) →
      openAt { w with files } (some name) limit = .ok (h', [])) := by
  rw [openAt_of_ne_empty w hname] at hopen
  cases hpath : (Path.ofString name).expandHome w.homes with
  | error fault =>
    rw [hpath] at hopen
    cases hopen
  | ok path =>
    rw [hpath] at hopen
    obtain ⟨hneat, hloadPath, hloadLimit, hloaded⟩ := load_neat rfl (limitOf_pos limit) hopen
    obtain ⟨hneat', hpath', hlimit'⟩ := @appendAll_neat lines w.files h hneat
    have hfiled := appendAll_filed lines hneat hloadPath (by rw [happend]) (.inr hkept)
    have hentries := fun entry => @mem_entries_appendAll lines w.files h entry
    rw [happend] at hneat' hpath' hlimit' hfiled hentries
    obtain ⟨path', hsome, hread⟩ := hfiled
    obtain rfl : path = path' := by
      rw [hpath', hloadPath] at hsome
      exact Option.some.inj hsome
    have hlimit : h'.limit = limitOf limit := hlimit'.trans hloadLimit
    have hreopen : openAt { w with files } (some name) limit =
        .ok ({ h' with entries := lastOf h'.limit (h'.entries.flatMap cleaned) }, []) := by
      rw [openAt_of_ne_empty _ hname]
      simp only [hpath, load_of_read hneat'.tidy hread]
      rw [← hsome, ← hlimit]
    have hsurvives : openAt { w with files } (some name) limit = .ok (h', []) ↔
        ∀ entry ∈ h'.entries, Text.Unbroken entry := by
      rw [hreopen, ← hneat'.reloaded_iff]
      constructor
      · intro hsame
        exact congrArg (fun x => x.1.entries) (Except.ok.inj hsame)
      · intro hsame
        rw [hsame]
    refine ⟨hreopen, hsurvives, fun hlines => hsurvives.2 fun entry hentry => ?_⟩
    rcases hentries entry hentry with hentry | ⟨line, hline, rfl⟩
    · exact hloaded entry hentry
    · exact hlines line hline

/-- A history of at most three entries in a file that is not there yet. -/
def shortHistory : History := { limit := 3, path := some ⟨"", ["h"]⟩ }

/-- Three lines, of which the second has a line separator in it. -/
def separatedLines : List String := ["first", "a\u2028b", "last"]

/-- The second of three entries comes back as two, and the first one gives way to them. -/
theorem reopened_entries_separated :
    openAt {} (some "h") 3 = .ok (shortHistory, []) ∧
    ∃ h' files, shortHistory.appendAll {} separatedLines = (h', files, []) ∧
      h'.entries = separatedLines ∧
      openAt { files } (some "h") 3 = .ok ({ h' with entries := ["a", "b", "last"] }, []) := by
  have hopen : openAt {} (some "h") 3 = .ok (shortHistory, []) := by decide +kernel
  have hkept : shortHistory.KeepsOne {} separatedLines :=
    ⟨[], "first", ["a\u2028b", "last"], rfl, by decide +kernel⟩
  have hentries : (shortHistory.appendAll {} separatedLines).1.entries = separatedLines := by
    decide +kernel
  have hlimit : (shortHistory.appendAll {} separatedLines).1.limit = 3 := rfl
  have hwritten : (shortHistory.appendAll {} separatedLines).2.2 = [] := by decide +kernel
  have hlines : lastOf 3 (separatedLines.flatMap cleaned) = ["a", "b", "last"] := by decide +kernel
  refine ⟨hopen, _, (shortHistory.appendAll {} separatedLines).2.1, ?_, hentries, ?_⟩
  · rw [← hwritten]
  · have hreopened := (reopened_entries (by decide) hopen (by rw [← hwritten]) hkept).1
    rwa [hlimit, hentries, hlines] at hreopened

end Debugger.History

end ChunkMachine
