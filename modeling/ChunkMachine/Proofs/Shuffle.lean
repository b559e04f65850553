import ChunkMachine.Stack.Shuffle
import Mathlib.Data.List.Nodup
import Mathlib.Data.List.NodupEquivFin
import Mathlib.Data.List.Perm.Basic
import Mathlib.Data.Set.Function
import Mathlib.Logic.Equiv.Fin.Basic

/-!
# What a shuffle can do

A shuffle of `n` values draws a number below each of `n, n - 1, …, 2`, in this order (`Lawful`). The
first draw settles which value comes to the last position, and the other draws shuffle what is left in
front of it (`permute_cons`). So the draws can be read back from the order that they lead to, one after
the other from its end: if the values are distinct, no two sequences of draws lead to the same order, and
every order is led to by one (`permute_bijOn`). Draws that are all equally likely therefore make all
orders equally likely.

The draws are made without a look at the values, and they move values without a look at them (`map_permute`).
So what a shuffle does is a permutation of the positions (`drawnOrder`), which the generator and the number of
values settle. Shuffling the positions themselves shows it.
-/

namespace ChunkMachine

variable {α β : Type}

/-! ### Lawful draws -/

/-- The draws that a shuffle of `n` values can make: one for each of the positions `n - 1, …, 1`, in this
order, and none past its position. -/
structure Lawful (n : Nat) (draws : List Nat) : Prop where
  length_eq : draws.length = n - 1
  le : ∀ (j : Nat) (h : j < draws.length), draws[j] ≤ n - 1 - j

/-- With fewer than two values there is nothing to draw. -/
theorem lawful_of_le_one {n : Nat} (hn : n ≤ 1) {draws : List Nat} :
    Lawful n draws ↔ draws = [] := by
  constructor
  · intro h
    have := h.length_eq
    exact List.length_eq_zero_iff.1 (by omega)
  · rintro rfl
    exact ⟨by simp; omega, by simp⟩

theorem lawful_cons {n d : Nat} {ds : List Nat} :
    Lawful (n + 2) (d :: ds) ↔ d ≤ n + 1 ∧ Lawful (n + 1) ds := by
  constructor
  · intro h
    refine ⟨h.le 0 (by simp), by simpa using h.length_eq, fun j hj => ?_⟩
    have := h.le (j + 1) (by simpa using hj)
    rw [List.getElem_cons_succ] at this
    omega
  · rintro ⟨hd, hds⟩
    refine ⟨by simp [hds.length_eq], fun j hj => ?_⟩
    cases j with
    | zero => exact hd
    | succ j =>
      have := hds.le j (by simpa using hj)
      rw [List.getElem_cons_succ]
      omega

theorem Lawful.exists_cons {n : Nat} {draws : List Nat} (h : Lawful (n + 2) draws) :
    ∃ d ds, draws = d :: ds ∧ d ≤ n + 1 ∧ Lawful (n + 1) ds := by
  obtain ⟨d, ds, rfl⟩ := List.exists_cons_of_length_eq_add_one (n := n) h.length_eq
  exact ⟨d, ds, rfl, lawful_cons.1 h⟩

theorem Lawful.lt {n : Nat} {draws : List Nat} (h : Lawful n draws) : ∀ d ∈ draws, d < n := by
  intro d hd
  obtain ⟨j, hj, rfl⟩ := List.getElem_of_mem hd
  have hlen := h.length_eq
  have hle := h.le j hj
  omega

namespace Generator

/-- A generator that is asked for a number below each of `n, n - 1, …, 2` in turn gives these answers. -/
inductive Answers : Generator → Nat → List Nat → Prop where
  | done (g : Generator) {n : Nat} (hn : n ≤ 1) : Answers g n []
  | next (g : Generator) {n : Nat} {ds : List Nat} (h : Answers (g.below (n + 2)).2 (n + 1) ds) :
    Answers g (n + 2) ((g.below (n + 2)).1 :: ds)

/-- Every generator gives answers, and lawful ones. -/
theorem draws_answers : ∀ (n : Nat) (g : Generator),
    g.Answers (n + 1) (g.draws n).1 ∧ Lawful (n + 1) (g.draws n).1
  | 0, g => ⟨.done g (Nat.le_refl 1), (lawful_of_le_one (Nat.le_refl 1)).2 rfl⟩
  | n + 1, g => by
    obtain ⟨hanswers, hlawful⟩ := draws_answers n (g.below (n + 2)).2
    have hd : (g.below (n + 2)).1 < n + 2 := below_lt (Nat.succ_pos _) g
    simp only [draws]
    exact ⟨.next g hanswers, lawful_cons.2 ⟨Nat.le_of_lt_succ hd, hlawful⟩⟩

theorem Answers.eq_draws {g : Generator} {n : Nat} {ds : List Nat} (h : g.Answers n ds) :
    ds = (g.draws (n - 1)).1 := by
  induction h with
  | @done g n hn =>
    have hn : n - 1 = 0 := by omega
    rw [hn]
    rfl
  | next g h ih =>
    simp only [Nat.add_one_sub_one] at ih ⊢
    simp only [draws, ih]

end Generator

/-! ### Draws move values -/

theorem perm_swapIfInBounds (xs : Array α) (i j : Nat) : (xs.swapIfInBounds i j).Perm xs := by
  rw [Array.swapIfInBounds_def]
  split
  · split
    · exact Array.swap_perm _ _
    · exact .refl xs
  · exact .refl xs

theorem perm_permuteFrom (ds : List Nat) :
    ∀ (i : Nat) (xs : Array α), (permuteFrom i ds xs).Perm xs := by
  induction ds with
  | nil => intro i xs; exact .refl xs
  | cons d ds ih => intro i xs; exact (ih (i - 1) _).trans (perm_swapIfInBounds xs i d)

/-- Draws lose no value and make none. -/
theorem perm_permute (ds : List Nat) (xs : List α) : (permute ds xs).Perm xs :=
  (perm_permuteFrom ds _ xs.toArray).toList

theorem map_swapIfInBounds (f : α → β) (xs : Array α) (i j : Nat) :
    (xs.swapIfInBounds i j).map f = (xs.map f).swapIfInBounds i j := by
  ext k hk hk'
  · simp
  · simp only [Array.getElem_map, Array.getElem_swapIfInBounds, Array.size_map]
    split
    · rfl
    · split <;> rfl

theorem map_permuteFrom (f : α → β) (ds : List Nat) :
    ∀ (i : Nat) (xs : Array α), (permuteFrom i ds xs).map f = permuteFrom i ds (xs.map f) := by
  induction ds with
  | nil => intro i xs; rfl
  | cons d ds ih => intro i xs; rw [permuteFrom, permuteFrom, ih, map_swapIfInBounds]

/-- Draws do not look at the values that they move. -/
theorem map_permute (f : α → β) (ds : List Nat) (xs : List α) :
    (permute ds xs).map f = permute ds (xs.map f) := by
  simp only [permute, ← Array.toList_map, map_permuteFrom, List.map_toArray, List.length_map]

/-! ### Where the values come from -/

/-- The positions of `n` values, in the order that draws bring the values into. -/
def origins (draws : List Nat) (n : Nat) : List (Fin n) := permute draws (List.finRange n)

@[simp] theorem length_origins (draws : List Nat) (n : Nat) : (origins draws n).length = n := by
  simp [origins]

theorem perm_origins (draws : List Nat) (n : Nat) : (origins draws n).Perm (List.finRange n) :=
  perm_permute draws _

theorem permute_eq_map_origins (draws : List Nat) (xs : List α) :
    permute draws xs = (origins draws xs.length).map xs.get := by
  rw [origins, map_permute, List.map_get_finRange]

/-- The permutation of positions that draws make: the value at position `i` afterwards is the one that
was at position `drawnOrder draws n i`. -/
def drawnOrder (draws : List Nat) (n : Nat) : Equiv.Perm (Fin n) :=
  (finCongr (length_origins draws n).symm).trans <|
    List.Nodup.getEquivOfForallMemList (origins draws n)
      ((perm_origins draws n).nodup_iff.2 (List.nodup_finRange n))
      fun i => (perm_origins draws n).mem_iff.2 (List.mem_finRange i)

theorem getElem?_permute (draws : List Nat) {xs : List α} {n : Nat} (h : xs.length = n) (i : Fin n) :
    (permute draws xs)[i]? = xs[drawnOrder draws n i]? := by
  subst h
  rw [permute_eq_map_origins]
  simp [drawnOrder]

/-! ### The first draw -/

theorem swapIfInBounds_append {xs : Array α} {i j : Nat} (hi : i < xs.size) (hj : j < xs.size)
    (ys : Array α) : (xs ++ ys).swapIfInBounds i j = xs.swapIfInBounds i j ++ ys := by
  ext k hk hk'
  · simp
  · simp only [Array.getElem_append, Array.getElem_swapIfInBounds, Array.size_swapIfInBounds,
      Array.size_append]
    grind

/-- Draws below the length of a list leave alone what stands behind it. -/
theorem permuteFrom_append (ds : List Nat) (ys : Array α) :
    ∀ {i : Nat} {xs : Array α}, i ≤ xs.size - 1 → (∀ d ∈ ds, d < xs.size) →
      permuteFrom i ds (xs ++ ys) = permuteFrom i ds xs ++ ys := by
  induction ds with
  | nil => intro i xs _ _; rfl
  | cons d ds ih =>
    intro i xs hi hds
    have hd : d < xs.size := hds d List.mem_cons_self
    have hrest : ∀ k ∈ ds, k < (xs.swapIfInBounds i d).size := fun k hk => by
      rw [Array.size_swapIfInBounds]
      exact hds k (List.mem_cons_of_mem _ hk)
    rw [permuteFrom, permuteFrom, swapIfInBounds_append (by omega) hd]
    exact ih (by rw [Array.size_swapIfInBounds]; omega) hrest

/-- What is left in front of the last position once the value at position `d` was moved there. -/
def frontWithout (d : Nat) (xs : List α) : List α :=
  (xs.toArray.swapIfInBounds (xs.length - 1) d).toList.dropLast

@[simp] theorem length_frontWithout (d : Nat) (xs : List α) :
    (frontWithout d xs).length = xs.length - 1 := by
  simp [frontWithout]

/-- The first exchange brings the drawn value to the last position. -/
theorem swap_last {d : Nat} {xs : List α} (hd : d < xs.length) :
    (xs.toArray.swapIfInBounds (xs.length - 1) d).toList = frontWithout d xs ++ [xs[d]] := by
  set swapped := (xs.toArray.swapIfInBounds (xs.length - 1) d).toList with hswapped
  have hlen : swapped.length = xs.length := by simp [hswapped]
  have hne : swapped ≠ [] := by
    intro hnil
    rw [hnil, List.length_nil] at hlen
    omega
  have hlast : swapped.getLast hne = xs[d] := by
    rw [List.getLast_eq_getElem]
    simp only [hswapped, Array.getElem_toList, Array.getElem_swapIfInBounds, Array.length_toList,
      Array.size_swapIfInBounds, List.size_toArray]
    simp [hd]
  rw [← hlast]
  exact (List.dropLast_append_getLast hne).symm

theorem perm_frontWithout {d : Nat} {xs : List α} (hd : d < xs.length) :
    (frontWithout d xs ++ [xs[d]]).Perm xs := by
  rw [← swap_last hd]
  exact (perm_swapIfInBounds xs.toArray (xs.length - 1) d).toList

/-- **The first draw settles the last value, and the others permute what is left in front of it.** -/
theorem permute_cons {d : Nat} {ds : List Nat} {xs : List α} (hd : d < xs.length)
    (hds : ∀ k ∈ ds, k < xs.length - 1) :
    permute (d :: ds) xs = permute ds (frontWithout d xs) ++ [xs[d]] := by
  have hswap : xs.toArray.swapIfInBounds (xs.length - 1) d =
      (frontWithout d xs).toArray ++ #[xs[d]] := by
    rw [← Array.toList_inj, swap_last hd]
    simp
  rw [permute, permuteFrom, hswap,
    permuteFrom_append ds #[xs[d]] (by simp) (by simpa using hds)]
  simp [permute]

/-! ### Draws and orders -/

theorem nodup_frontWithout {d : Nat} {xs : List α} (hd : d < xs.length) (h : xs.Nodup) :
    (frontWithout d xs).Nodup :=
  (List.nodup_append.1 ((perm_frontWithout hd).nodup_iff.2 h)).1

/-- Different draws lead to different orders of distinct values. -/
theorem permute_injective (n : Nat) : ∀ {xs : List α} {ds ds' : List Nat}, xs.length = n →
    xs.Nodup → Lawful n ds → Lawful n ds' → permute ds xs = permute ds' xs → ds = ds' := by
  induction n with
  | zero =>
    intro xs ds ds' _ _ hds hds' _
    rw [(lawful_of_le_one (Nat.zero_le 1)).1 hds, (lawful_of_le_one (Nat.zero_le 1)).1 hds']
  | succ n ih =>
    intro xs ds ds' hlen hnodup hds hds' heq
    cases n with
    | zero =>
      rw [(lawful_of_le_one (Nat.le_refl 1)).1 hds, (lawful_of_le_one (Nat.le_refl 1)).1 hds']
    | succ n =>
      obtain ⟨d, ds, rfl, hd, hrest⟩ := hds.exists_cons
      obtain ⟨d', ds', rfl, hd', hrest'⟩ := hds'.exists_cons
      have hd : d < xs.length := by omega
      have hd' : d' < xs.length := by omega
      rw [permute_cons hd (by simpa [hlen] using hrest.lt),
        permute_cons hd' (by simpa [hlen] using hrest'.lt)] at heq
      -- the last value tells the first draw, and what stands before it the others
      obtain ⟨hfront, hlast⟩ := List.append_inj' heq rfl
      have hfirst : d = d' := hnodup.getElem_inj_iff.1 (List.singleton_inj.1 hlast)
      subst hfirst
      rw [ih (by simp [hlen]) (nodup_frontWithout hd hnodup) hrest hrest' hfront]

/-- Every order of the values is led to by some draws. -/
theorem exists_permute_eq (n : Nat) : ∀ {xs ys : List α}, xs.length = n → ys.Perm xs →
    ∃ ds, Lawful n ds ∧ permute ds xs = ys := by
  induction n with
  | zero =>
    intro xs ys hlen hperm
    obtain rfl := List.length_eq_zero_iff.1 hlen
    exact ⟨[], (lawful_of_le_one (Nat.zero_le 1)).2 rfl, hperm.eq_nil.symm⟩
  | succ n ih =>
    intro xs ys hlen hperm
    cases n with
    | zero =>
      obtain ⟨x, rfl⟩ := List.length_eq_one_iff.1 hlen
      exact ⟨[], (lawful_of_le_one (Nat.le_refl 1)).2 rfl, (List.perm_singleton.1 hperm).symm⟩
    | succ n =>
      have hne : ys ≠ [] := by
        intro hnil
        have := hperm.length_eq
        rw [hnil, List.length_nil] at this
        omega
      obtain ⟨d, hd, hlast⟩ := List.getElem_of_mem (hperm.mem_iff.1 (List.getLast_mem hne))
      have hfront : ys.dropLast.Perm (frontWithout d xs) := by
        refine (List.perm_append_right_iff [xs[d]]).1 ?_
        refine .trans ?_ (perm_frontWithout hd).symm
        rw [hlast, List.dropLast_append_getLast hne]
        exact hperm
      obtain ⟨ds, hds, hpermute⟩ := ih (by simp [hlen]) hfront
      refine ⟨d :: ds, lawful_cons.2 ⟨by omega, hds⟩, ?_⟩
      rw [permute_cons hd (by simpa [hlen] using hds.lt), hpermute, hlast,
        List.dropLast_append_getLast hne]

/-- **Lawful draws and the orders of distinct values correspond to each other.** -/
theorem permute_bijOn {xs : List α} (h : xs.Nodup) :
    Set.BijOn (fun ds => permute ds xs) {ds | Lawful xs.length ds} {ys | ys.Perm xs} := by
  refine ⟨fun ds _ => perm_permute ds xs, fun ds hds ds' hds' heq => ?_, fun ys hys => ?_⟩
  · exact permute_injective xs.length rfl h hds hds' heq
  · exact exists_permute_eq xs.length rfl hys

/-! ### Shuffles -/

/-- A shuffle moves the words of a stack by what its generator answers. -/
theorem Stack.shuffle_of_answers {s : Stack} {g : Generator} {ds : List Nat}
    (h : g.Answers s.length ds) : (s.shuffle g).1 = permute ds s := by
  rw [h.eq_draws]
  rfl

/-- A generator answers a shuffle lawfully, whatever the size of the stack. -/
theorem Generator.exists_answers (g : Generator) (n : Nat) :
    ∃ ds, g.Answers n ds ∧ Lawful n ds := by
  cases n with
  | zero => exact ⟨[], .done g (Nat.zero_le 1), (lawful_of_le_one (Nat.zero_le 1)).2 rfl⟩
  | succ n => exact ⟨(g.draws n).1, g.draws_answers n⟩

/-- **A shuffle can produce every order in exactly one way.** Let the words of a stack be distinct. The
generator is asked for a number below each of `n, n - 1, …, 2`; its answers are lawful, and they alone
settle the order of the shuffled stack. Sequences of lawful answers and orders of the stack correspond to
each other. -/
theorem Stack.shuffle_bijective {s : Stack} (h : s.Nodup) :
    (∀ g : Generator, ∃ ds, g.Answers s.length ds ∧ Lawful s.length ds) ∧
    (∀ (g : Generator) (ds : List Nat), g.Answers s.length ds → (s.shuffle g).1 = permute ds s) ∧
    Set.BijOn (fun ds => permute ds s) {ds | Lawful s.length ds} {t | t.Perm s} :=
  ⟨fun g => g.exists_answers s.length, fun _ _ => shuffle_of_answers, permute_bijOn h⟩

/-- The order `2, 3, 1` of three words is led to by two draws of the first position, and by no others. -/
theorem Stack.shuffle_bijective_three :
    ([1, 2, 3] : Stack).Nodup ∧ Lawful 3 [0, 0] ∧ permute [0, 0] ([1, 2, 3] : Stack) = [2, 3, 1] ∧
    ∀ ds, Lawful 3 ds → permute ds ([1, 2, 3] : Stack) = [2, 3, 1] → ds = [0, 0] := by
  have hnodup : ([1, 2, 3] : Stack).Nodup := by decide
  have hlawful : Lawful 3 [0, 0] := by
    rw [lawful_cons, lawful_cons, lawful_of_le_one (Nat.le_refl 1)]
    decide
  have hpermute : permute [0, 0] ([1, 2, 3] : Stack) = [2, 3, 1] := by decide
  obtain ⟨-, -, hbijective⟩ := Stack.shuffle_bijective hnodup
  refine ⟨hnodup, hlawful, hpermute, fun ds hds heq => ?_⟩
  exact hbijective.injOn hds hlawful (heq.trans hpermute.symm)

/-- Fewer than two words are left alone, and nothing is drawn for them. -/
theorem Stack.shuffle_of_length_le_one {s : Stack} (h : s.length ≤ 1) (g : Generator) :
    s.shuffle g = (s, g) := by
  have hdraws : g.draws (s.length - 1) = ([], g) := by
    rw [Nat.sub_eq_zero_of_le h]
    rfl
  simp only [Stack.shuffle, hdraws]
  rfl

/-- **A shuffle does not look at the words.** For every state of the generator and every size there are a
permutation of the positions and a next state, such that any stack of this size is brought into the order
of the permutation and leaves the generator in that state. So the words are kept, each as often as it was
there; replacing every word by another one can be done before or after; and fewer than two words stay as
they are, without a draw. -/
theorem Stack.shuffle_value_blind (g : Generator) (n : Nat) :
    ∃ (p : Equiv.Perm (Fin n)) (g' : Generator), ∀ s : Stack, s.length = n →
      (∀ i : Fin n, (s.shuffle g).1[i]? = s[p i]?) ∧ (s.shuffle g).2 = g' ∧
      (s.shuffle g).1.length = n ∧ (s.shuffle g).1.Perm s ∧
      (∀ f : Word → Word, Stack.shuffle (s.map f) g = ((s.shuffle g).1.map f, g')) ∧
      (n ≤ 1 → s.shuffle g = (s, g)) := by
  refine ⟨drawnOrder (g.draws (n - 1)).1 n, (g.draws (n - 1)).2, fun s hs => ?_⟩
  have hshuffle : ∀ t : Stack, t.length = n →
      t.shuffle g = (permute (g.draws (n - 1)).1 t, (g.draws (n - 1)).2) := by
    rintro t rfl
    rfl
  rw [hshuffle s hs]
  refine ⟨getElem?_permute _ hs, rfl, ?_, perm_permute _ s, fun f => ?_, fun hn => ?_⟩
  · rw [length_permute, hs]
  · rw [hshuffle (s.map f) (by rw [List.length_map, hs]), map_permute]
  · rw [← hshuffle s hs]
    exact shuffle_of_length_le_one (hs ▸ hn) g

/-- One permutation serves a stack in which a word is repeated and one in which the words differ. -/
theorem Stack.shuffle_value_blind_repeated :
    let g : Generator := ⟨Array.replicate Generator.size 0, 0⟩
    (Stack.shuffle [7, 7, 9] g).1 = [7, 9, 7] ∧
    ∃ p : Equiv.Perm (Fin 3),
      (∀ i : Fin 3, (Stack.shuffle [7, 7, 9] g).1[i]? = ([7, 7, 9] : Stack)[p i]?) ∧
      (∀ i : Fin 3, (Stack.shuffle [1, 2, 3] g).1[i]? = ([1, 2, 3] : Stack)[p i]?) := by
  intro g
  have hshuffled : (Stack.shuffle [7, 7, 9] g).1 = [7, 9, 7] := by decide +kernel
  obtain ⟨p, _, hblind⟩ := Stack.shuffle_value_blind g 3
  exact ⟨hshuffled, p, (hblind [7, 7, 9] rfl).1, (hblind [1, 2, 3] rfl).1⟩

end ChunkMachine
