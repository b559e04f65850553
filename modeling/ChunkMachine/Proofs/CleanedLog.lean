import ChunkMachine.Proofs.Persistence
import Mathlib.Data.List.Destutter

/-!
# The history as the end of a log

A history is cut down to its limit whenever a line is kept, and whether a line is kept is decided by the last
entry that is left. It comes to the same to keep a log of everything and to cut it down once at the end: the
log is cleaned of blank lines and of repetitions as a whole (`fullLog`), and the entries are the last ones of
it. The reason is that cutting down never takes the last entry away, for at least one is left.

## What is proved

* `fullLog_cons`: what one line adds to the log.
* `exists_fullLog_eq`: the log goes on from what was loaded, without blank lines or repetitions.
* `rtake_fullLog`: a log that was cut down at the start ends alike.
* `entries_appendAll`: the entries after any lines are the last ones of the log.
* `entries_end_log`: the same of a history that was opened, with what follows for its entries and its file.
-/

namespace ChunkMachine.Debugger.History

/-! ### The last elements of a list -/

section List

variable {α : Type}

theorem rtake_rtake_append (n : Nat) (l m : List α) : (l.rtake n ++ m).rtake n = (l ++ m).rtake n := by
  simp only [List.rtake_eq_reverse_take_reverse, List.reverse_append, List.reverse_reverse,
    List.take_append, List.take_take, List.length_reverse]
  rw [Nat.min_eq_left (Nat.sub_le n m.length)]

theorem rtake_rtake (n : Nat) (l : List α) : (l.rtake n).rtake n = l.rtake n := by
  simpa using rtake_rtake_append n l []

/-- The last of the last elements is the last one, if there is one to be taken. -/
theorem getLast?_rtake {n : Nat} (hn : 0 < n) (l : List α) : (l.rtake n).getLast? = l.getLast? := by
  rw [List.rtake_eq_reverse_take_reverse, List.getLast?_reverse, List.head?_take,
    if_neg (Nat.ne_of_gt hn), List.head?_reverse]

end List

/-! ### The log -/

/-- What a history without a limit would hold: the entries that were loaded, and after them the lines,
stripped, without the blank ones and without those that repeat what was kept immediately before them. The
last entry that was loaded counts as kept before the first line. -/
def fullLog (loaded lines : List String) : List String :=
  loaded.dropLast ++
    (loaded.getLast?.toList ++ (lines.map Text.strip).filter (· ≠ "")).destutter (· ≠ ·)

/-- The text would be kept after these entries: it is not empty, and not the last of them. -/
def Adds (entries : List String) (text : String) : Prop := text ≠ "" ∧ entries.getLast? ≠ some text

instance (entries : List String) (text : String) : Decidable (Adds entries text) :=
  inferInstanceAs (Decidable (text ≠ "" ∧ entries.getLast? ≠ some text))

theorem fullLog_concat (front : List String) (last : String) (lines : List String) :
    fullLog (front ++ [last]) lines =
      front ++ (last :: (lines.map Text.strip).filter (· ≠ "")).destutter (· ≠ ·) := by
  simp [fullLog]

theorem fullLog_nil (loaded : List String) : fullLog loaded [] = loaded := by
  rcases List.eq_nil_or_concat' loaded with rfl | ⟨front, last, rfl⟩
  · rfl
  · rw [fullLog_concat]
    rfl

/-- **What one line adds to the log.** -/
theorem fullLog_cons (loaded : List String) (line : String) (lines : List String) :
    fullLog loaded (line :: lines) =
      if Adds loaded (Text.strip line) then fullLog (loaded ++ [Text.strip line]) lines
      else fullLog loaded lines := by
  by_cases hblank : Text.strip line = ""
  · simp [fullLog, Adds, hblank]
  · have hcleaned : ((line :: lines).map Text.strip).filter (· ≠ "") =
        Text.strip line :: (lines.map Text.strip).filter (· ≠ "") := by
      simp [hblank]
    rcases List.eq_nil_or_concat' loaded with rfl | ⟨front, last, rfl⟩
    · rw [if_pos (by simp [Adds, hblank]), fullLog_concat, fullLog, hcleaned]
      rfl
    · rw [fullLog_concat, hcleaned, List.destutter_cons_cons]
      by_cases hrepeats : last = Text.strip line
      · rw [if_neg (by simp [hrepeats]), if_neg (by simp [Adds, hrepeats]), fullLog_concat]
        rfl
      · rw [if_pos hrepeats, if_pos (by simp [Adds, hblank, hrepeats]), fullLog_concat]
        simp [List.destutter_cons']

/-- What the log holds besides the entries that were loaded: no blank line, and nothing that repeats what
stands before it. -/
theorem exists_fullLog_eq (lines : List String) : ∀ loaded : List String,
    ∃ kept, fullLog loaded lines = loaded ++ kept ∧ (∀ entry ∈ kept, Text.Tidy entry) ∧
      (loaded.getLast?.toList ++ kept).IsChain (· ≠ ·) := by
  induction lines with
  | nil =>
    intro loaded
    refine ⟨[], by rw [fullLog_nil, List.append_nil], by simp, ?_⟩
    cases loaded.getLast? <;> simp
  | cons line lines ih =>
    intro loaded
    rw [fullLog_cons]
    by_cases hadds : Adds loaded (Text.strip line)
    · obtain ⟨hne, hlast⟩ := hadds
      obtain ⟨kept, hlog, htidy, hchain⟩ := ih (loaded ++ [Text.strip line])
      refine ⟨Text.strip line :: kept, ?_, ?_, ?_⟩
      · rw [if_pos ⟨hne, hlast⟩, hlog, List.append_assoc]
        rfl
      · intro entry hentry
        rcases List.mem_cons.1 hentry with rfl | hentry
        · exact Text.tidy_strip hne
        · exact htidy entry hentry
      · rw [List.getLast?_concat] at hchain
        cases hloaded : loaded.getLast? with
        | none => exact hchain
        | some last =>
          have hdiffers : last ≠ Text.strip line := fun heq => hlast (by rw [hloaded, heq])
          exact hchain.cons_cons hdiffers
    · rw [if_neg hadds]
      exact ih loaded

/-- **Cutting the log down at the start makes no difference** to what is cut down at the end. -/
theorem rtake_fullLog {n : Nat} (hn : 0 < n) (lines : List String) : ∀ loaded : List String,
    (fullLog (loaded.rtake n) lines).rtake n = (fullLog loaded lines).rtake n := by
  induction lines with
  | nil => intro loaded; rw [fullLog_nil, fullLog_nil, rtake_rtake]
  | cons line lines ih =>
    intro loaded
    have hadds : Adds (loaded.rtake n) (Text.strip line) ↔ Adds loaded (Text.strip line) := by
      rw [Adds, Adds, getLast?_rtake hn]
    rw [fullLog_cons, fullLog_cons]
    simp only [hadds]
    split
    · -- both logs go on like the one that is cut down with the line in it
      rw [← ih (loaded.rtake n ++ [_]), rtake_rtake_append, ih]
    · exact ih loaded

/-! ### Keeping lines -/

theorem keeps_iff {h : History} {text : String} : h.keeps text = true ↔ Adds h.entries text := by
  simp [keeps, Adds]

theorem entries_append (files : Files) (h : History) (line : String) :
    (h.append files line).1.entries =
      if Adds h.entries (Text.strip line) then (h.entries ++ [Text.strip line]).rtake h.limit
      else h.entries := by
  by_cases hadds : Adds h.entries (Text.strip line)
  · rw [append_of_keeps (keeps_iff.2 hadds), if_pos hadds]
    rfl
  · have hkeeps : h.keeps (Text.strip line) = false := by
      rw [Bool.eq_false_iff]
      exact fun hkeeps => hadds (keeps_iff.1 hkeeps)
    rw [append_of_not_keeps hkeeps, if_neg hadds]

/-- **The entries after any lines are the last ones of the log.** -/
theorem entries_appendAll (lines : List String) : ∀ {files : Files} {h : History}, h.Neat →
    (h.appendAll files lines).1.entries = (fullLog h.entries lines).rtake h.limit := by
  induction lines with
  | nil =>
    intro files h hneat
    rw [fullLog_nil]
    exact (lastOf_of_length_le hneat.length_le).symm
  | cons line lines ih =>
    intro files h hneat
    obtain ⟨hneat', -, hlimit⟩ := append_neat hneat files line
    rw [appendAll_cons]
    simp only
    rw [ih hneat', hlimit, entries_append, fullLog_cons]
    split
    · rw [rtake_fullLog hneat.limit_pos]
    · rfl

/-- Whether the next line is kept can be seen from the log, though only its end is left. -/
theorem keeps_appendAll_iff {h : History} (hneat : h.Neat) (files : Files) (lines : List String)
    (text : String) :
    (h.appendAll files lines).1.keeps text = true ↔ Adds (fullLog h.entries lines) text := by
  rw [keeps_iff, Adds, Adds, entries_appendAll lines hneat, getLast?_rtake hneat.limit_pos]

/-- A line that is kept and written without a warning leaves the history in its file. -/
theorem append_filed {files files' : Files} {h h' : History} {line : String} {path : Path}
    (hneat : h.Neat) (hpath : h.path = some path) (hkeeps : h.keeps (Text.strip line) = true)
    (happend : h.append files line = (h', files', [])) :
    files'.read path = .ok (encodeText (unlines h'.entries)) := by
  rw [append_of_keeps hkeeps] at happend
  obtain ⟨rfl, hpersist⟩ := Prod.mk.inj happend
  have hpath' : (h.add (Text.strip line)).path = some path := hpath
  have hfiled := persist_filed hpath' (add_entries_ne_nil hneat _) (congrArg Prod.snd hpersist)
  rw [hpersist] at hfiled
  obtain ⟨path', hsome, hread⟩ := hfiled
  obtain rfl : path = path' := Option.some.inj (hpath'.symm.trans hsome)
  exact hread

/-! ### A history that was opened -/

/-- What opening can come to: a history without a file, or one that is loaded from its file. -/
theorem openAt_cases {w : Surroundings} {name : Option String} {limit : Int} {h : History}
    {log : List LogRecord} (hopen : openAt w name limit = .ok (h, log)) :
    h = { limit := limitOf limit } ∨
      ∃ path, load w.files { limit := limitOf limit, path := some path } path = .ok (h, log) := by
  unfold openAt at hopen
  split at hopen
  · cases hopen
    exact .inl rfl
  · cases hopen
    exact .inl rfl
  · split at hopen
    · cases hopen
    · exact .inr ⟨_, hopen⟩

/-- What is opened is neat and has the limit that is meant. -/
theorem openAt_neat {w : Surroundings} {name : Option String} {limit : Int} {h : History}
    {log : List LogRecord} (hopen : openAt w name limit = .ok (h, log)) :
    h.Neat ∧ h.limit = limitOf limit := by
  rcases openAt_cases hopen with rfl | ⟨path, hload⟩
  · exact ⟨⟨by simp, by simp, limitOf_pos limit⟩, rfl⟩
  · obtain ⟨hneat, -, hlimit, -⟩ := load_neat rfl (limitOf_pos limit) hload
    exact ⟨hneat, hlimit⟩

/-- What is opened holds the last lines of its file. -/
theorem openAt_entries {w : Surroundings} {name : Option String} {limit : Int} {h : History}
    {log : List LogRecord} {path : Path} {bytes : Bytes} {text : String}
    (hopen : openAt w name limit = .ok (h, log)) (hpath : h.path = some path)
    (hread : w.files.read path = .ok bytes) (htext : decodeText bytes = some text) :
    h.entries = (cleaned text).rtake (limitOf limit) := by
  rcases openAt_cases hopen with rfl | ⟨path', hload⟩
  · cases hpath
  · obtain ⟨-, hpath', -, -⟩ := load_neat rfl (limitOf_pos limit) hload
    obtain rfl : path = path' := Option.some.inj (hpath.symm.trans hpath')
    simp only [load, hread, htext] at hload
    cases hload
    rfl

/-- **The history is the end of the log.** Let a history be opened on any path, or on none, with any limit,
and let any lines be given to it. Its entries are then the last ones of the log of the entries that were
loaded and of these lines, as many as the limit allows and at least one; and if there was a file, it may as
well be the log of all the lines of the file. The log goes on from what was loaded with entries that are
stripped and not blank, none of which repeats the one before it. The next line is kept just if it would be
added to the log, so that cutting the entries down never changes which lines are left out; and when it is
kept and the write does not fail, the file holds the entries, each followed by a line feed. -/
theorem entries_end_log {w : Surroundings} {name : Option String} {limit : Int} {h : History}
    {log : List LogRecord} (hopen : openAt w name limit = .ok (h, log)) (lines : List String) :
    (h.appendAll w.files lines).1.entries = (fullLog h.entries lines).rtake (max 1 limit).toNat ∧
    (∀ path bytes text, h.path = some path → w.files.read path = .ok bytes → decodeText bytes = some text →
      (h.appendAll w.files lines).1.entries = (fullLog (cleaned text) lines).rtake (max 1 limit).toNat) ∧
    (h.appendAll w.files lines).1.entries.length ≤ (max 1 limit).toNat ∧
    (∃ kept, fullLog h.entries lines = h.entries ++ kept ∧ (∀ entry ∈ kept, Text.Tidy entry) ∧
      (h.entries.getLast?.toList ++ kept).IsChain (· ≠ ·)) ∧
    (∀ line, (h.appendAll w.files lines).1.keeps (Text.strip line) = true ↔
      Adds (fullLog h.entries lines) (Text.strip line)) ∧
    ∀ line path h' files', h.path = some path →
      (h.appendAll w.files lines).1.keeps (Text.strip line) = true →
      (h.appendAll w.files lines).1.append (h.appendAll w.files lines).2.1 line = (h', files', []) →
      files'.read path = .ok (encodeText (unlines h'.entries)) := by
  obtain ⟨hneat, hlimit⟩ := openAt_neat hopen
  obtain ⟨hneat', hpath', hlimit'⟩ := @appendAll_neat lines w.files h hneat
  have hentries : (h.appendAll w.files lines).1.entries = (fullLog h.entries lines).rtake (limitOf limit) := by
    rw [entries_appendAll lines hneat, hlimit]
  refine ⟨hentries, ?_, ?_, exists_fullLog_eq lines h.entries, ?_, ?_⟩
  · intro path bytes text hpath hread htext
    rw [hentries, openAt_entries hopen hpath hread htext]
    exact rtake_fullLog (limitOf_pos limit) lines (cleaned text)
  · exact hneat'.length_le.trans (hlimit'.trans hlimit).le
  · exact fun line => keeps_appendAll_iff hneat w.files lines (Text.strip line)
  · intro line path h' files' hpath hkeeps happend
    exact append_filed hneat' (hpath'.trans hpath) hkeeps happend

/-- A file of three lines, of which the second repeats the first. -/
def repeatingFile : Files := { nodes := [(["h"], .file (encodeText "a\na\nb\n"))] }

/-- The history that is opened on it if one entry is to be left. -/
def lastLine : History := { limit := 1, path := some ⟨"", ["h"]⟩, entries := ["b"] }

/-- A line that repeats the last of the file, a new one, a blank one and the new one again. -/
def repeatingLines : List String := [" b ", "c", " ", "c "]

/-- Of all these lines the new one is left. The line before it, which has been cut off, can then be kept
again, and is all that the file holds. -/
theorem entries_end_log_repeating :
    openAt { files := repeatingFile } (some "h") 0 = .ok (lastLine, []) ∧
    (lastLine.appendAll repeatingFile repeatingLines).1.entries = ["c"] ∧
    fullLog (cleaned "a\na\nb\n") repeatingLines = ["a", "a", "b", "c"] ∧
    ∃ h' files',
      (lastLine.appendAll repeatingFile repeatingLines).1.append
        (lastLine.appendAll repeatingFile repeatingLines).2.1 "b" = (h', files', []) ∧
      files'.read ⟨"", ["h"]⟩ = .ok (encodeText "b\n") := by
  have hopen : openAt { files := repeatingFile } (some "h") 0 = .ok (lastLine, []) := by decide +kernel
  have hlog : fullLog lastLine.entries repeatingLines = ["b", "c"] := by decide +kernel
  obtain ⟨hentries, -, -, -, hkeeps, hfile⟩ := entries_end_log hopen repeatingLines
  rw [hlog] at hentries hkeeps
  have hwritten : ((lastLine.appendAll repeatingFile repeatingLines).1.append
      (lastLine.appendAll repeatingFile repeatingLines).2.1 "b").2.2 = [] := by decide +kernel
  have hlast : ((lastLine.appendAll repeatingFile repeatingLines).1.append
      (lastLine.appendAll repeatingFile repeatingLines).2.1 "b").1.entries = ["b"] := by decide +kernel
  refine ⟨hopen, hentries, by decide +kernel, _, _, by rw [← hwritten], ?_⟩
  have hread := hfile "b" ⟨"", ["h"]⟩ _ _ rfl ((hkeeps "b").2 (by decide +kernel)) (by rw [← hwritten])
  rwa [hlast] at hread

end ChunkMachine.Debugger.History
