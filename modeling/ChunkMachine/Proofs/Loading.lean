import ChunkMachine.Files

/-!
# Paths that can be loaded from

A program is loaded from a path. Two kinds of path are handled in a way of their own before any file is
looked for. A path with a null character is never passed on. A path that begins with a tilde is taken to
be relative to a home directory, but only by the debugger; it is the path in normal form that counts, in
which empty names and single dots have been dropped, and so `./~x` is such a path.

## What is proved

* `expandHome_of_plain`: a path that is not relative to a home directory is left as it is.
* `loadProgram_ne_nullByte`: a path that was written without null characters is not refused for one.
-/

namespace ChunkMachine

/-! ### Paths -/

namespace Path

/-- The path is not relative to a home directory: it has a root, or its first name begins with no
tilde. -/
def Plain (p : Path) : Prop := p.root = "" → ∀ name ∈ p.names.head?, Text.begins "~" name = false

instance (p : Path) : Decidable p.Plain :=
  inferInstanceAs (Decidable (p.root = "" → ∀ name ∈ p.names.head?, Text.begins "~" name = false))

theorem expandHome_of_plain {p : Path} (h : p.Plain) (homes : Homes) : p.expandHome homes = .ok p := by
  unfold expandHome
  split
  · rename_i name names hroot hnames
    have hname : Text.begins "~" name = false := h hroot name (by rw [hnames]; rfl)
    rw [hname]
    rfl
  · rfl

/-- The pieces of a path have its characters. -/
theorem mem_of_mem_splitSlashes (cs : List Char) : ∀ {piece : List Char} {name : String} {c : Char},
    name ∈ splitSlashes piece cs → c ∈ name.toList → c ∈ piece ∨ c ∈ cs := by
  induction cs with
  | nil =>
    intro piece name c hname hc
    rw [splitSlashes, List.mem_singleton] at hname
    subst hname
    exact .inl (by simpa using hc)
  | cons d cs ih =>
    intro piece name c hname hc
    rw [splitSlashes] at hname
    split at hname
    · rcases List.mem_cons.1 hname with rfl | hname
      · exact .inl (by simpa using hc)
      · rcases ih hname hc with hc | hc
        · cases hc
        · exact .inr (List.mem_cons_of_mem _ hc)
    · rcases ih hname hc with hc | hc
      · rcases List.mem_cons.1 hc with rfl | hc
        · exact .inr List.mem_cons_self
        · exact .inl hc
      · exact .inr (List.mem_cons_of_mem _ hc)

theorem hasNull_ofString {s : String} (h : '\x00' ∉ s.toList) : (ofString s).hasNull = false := by
  rw [Bool.eq_false_iff]
  intro hnull
  obtain ⟨name, hname, hc⟩ := List.any_eq_true.1 hnull
  rcases mem_of_mem_splitSlashes s.toList (List.mem_filter.1 hname).1 (List.contains_iff_mem.1 hc) with
    hc | hc
  · cases hc
  · exact h hc

end Path

namespace Files

theorem enter_ne_nullByte (f : Files) (place : List String) (name : String) :
    f.enter place name ≠ .error .nullByte := by
  unfold enter child
  split
  · simp [bind, Except.bind]
  · split
    · simp only [bind, Except.bind]
      split <;> simp
    · split
      · simp [bind, Except.bind]
      · simp only [bind, Except.bind]
        split <;> simp

theorem foldlM_enter_ne_nullByte (f : Files) (names : List String) : ∀ place : List String,
    names.foldlM f.enter place ≠ .error .nullByte := by
  induction names with
  | nil => intro place; simp [pure, Except.pure]
  | cons name names ih =>
    intro place
    rw [List.foldlM_cons]
    cases hplace : f.enter place name with
    | error fault =>
      intro hnull
      refine f.enter_ne_nullByte place name ?_
      rw [hplace]
      exact hnull
    | ok next => exact ih next

theorem find_ne_nullByte {f : Files} {p : Path} (h : p.hasNull = false) :
    f.find p ≠ .error .nullByte := by
  unfold find admissible
  rw [h]
  simp only [Bool.false_eq_true, if_false]
  split
  · simp [bind, Except.bind]
  · exact f.foldlM_enter_ne_nullByte p.names (f.startOf p)

theorem read_ne_nullByte {f : Files} {p : Path} {e : FileError} (h : p.hasNull = false)
    (hread : f.read p = .error e) : e.fault ≠ .nullByte := by
  unfold read at hread
  cases hfind : f.find p with
  | error fault =>
    simp only [hfind, bind, Except.bind, failingAt] at hread
    cases hread
    rintro rfl
    exact find_ne_nullByte h hfind
  | ok place =>
    simp only [hfind, bind, Except.bind] at hread
    split at hread
    · cases hread
    · cases hread
      simp
    · cases hread
      simp

end Files

namespace Program

theorem readSymbols_ne_nullByte (cs : List Char) : readSymbols cs ≠ .error .nullByte := by
  induction cs with
  | nil => simp [readSymbols]
  | cons c cs ih =>
    rw [readSymbols]
    split
    · simp
    · cases hcs : readSymbols cs with
      | error fault =>
        rintro hnull
        cases hnull
        exact ih hcs
      | ok ops => simp [Except.map]

theorem parse_ne_nullByte (text : String) : Program.parse text ≠ .error .nullByte := by
  unfold Program.parse
  cases hread : readSymbols (squeeze text) with
  | error fault =>
    rintro hnull
    cases hnull
    exact readSymbols_ne_nullByte _ hread
  | ok ops =>
    simp only [Except.bind, ofOpcodes]
    split <;> simp

end Program

/-- A program that cannot be loaded from a path without null characters is not refused for one. -/
theorem Files.loadProgram_ne_nullByte {f : Files} {p : Path} (h : p.hasNull = false) :
    f.loadProgram p ≠ .error .nullByte := by
  unfold loadProgram
  split
  · exact Program.parse_ne_nullByte _
  · rename_i e hread
    simp [read_ne_nullByte h hread]

end ChunkMachine
