/-
Module: GyreWard.Lib.Capped
Purpose: Lists that lose some of their items on the way: those behind a cap, and when it cuts no
  block or leaves just the wanted ones; those that come too late for what went before them, and when
  nothing is lost with them.
Trusted boundary: none
Main exports: push, foldl_push, mem_take_filter_range, chosen_iff, fill, fill_fresh, fill_known, Whole,
  Uncut, uncut_of_length, whole_take_iff, sieve, flatMap_sieve, nothing_late
-/
import Mathlib.Data.List.Flatten
import Mathlib.Data.List.Nodup
import Mathlib.Data.List.Perm.Subperm

namespace Lib

variable {α β : Type}

/-! ### Appending -/

/-- Append while there is room. -/
def push (cap : Nat) (acc : List α) (a : α) : List α := if acc.length < cap then acc ++ [a] else acc

/-- What is appended one by one is there as far as the cap goes. -/
theorem foldl_push {cap : Nat} {acc : List α} (fits : acc.length ≤ cap) (items : List α) :
    items.foldl (push cap) acc = (acc ++ items).take cap := by
  induction items generalizing acc with
  | nil =>
      rw [List.append_nil, List.take_of_length_le fits]
      rfl
  | cons a rest ih =>
      rw [List.foldl_cons]
      by_cases room : acc.length < cap
      · have grown : (acc ++ [a]).length ≤ cap := by
          rw [List.length_append]
          exact room
        rw [push, if_pos room, ih grown, List.append_assoc]
        rfl
      · have full : acc.length = cap := Nat.le_antisymm fits (Nat.not_lt.mp room)
        rw [push, if_neg room, ih fits, ← full, List.take_left, List.take_left]

/-- Appending to what was cut comes to the same. -/
theorem take_append_take (cap : Nat) (acc items : List α) :
    (acc.take cap ++ items).take cap = (acc ++ items).take cap := by
  rw [List.take_append, List.take_append, List.take_take, Nat.min_self, List.length_take]
  congr 2
  omega

/-! ### Choosing -/

section Choose

variable {p q : Nat → Bool} {n c g : Nat}

theorem countP_range_le (le : g ≤ n) : (List.range g).countP p ≤ (List.range n).countP p :=
  (List.range_sublist.mpr le).countP_le

theorem countP_range_lt (below : g < n) (here : p g = true) :
    (List.range g).countP p < (List.range n).countP p := by
  have counted : (List.range (g + 1)).countP p = (List.range g).countP p + 1 := by
    rw [List.range_succ, List.countP_append, List.countP_singleton, if_pos here]
  have more : (List.range (g + 1)).countP p ≤ (List.range n).countP p :=
    countP_range_le (Nat.succ_le_of_lt below)
  omega

/-- The first of the numbers that pass are those with fewer before them. -/
theorem mem_take_filter_range :
    g ∈ ((List.range n).filter p).take c ↔
      g < n ∧ p g = true ∧ (List.range g).countP p < c := by
  induction n with
  | zero => simp
  | succ n ih =>
      have last : g ∈ ([n].filter p).take (c - (List.range n).countP p) ↔
          g = n ∧ p n = true ∧ (List.range n).countP p < c := by
        by_cases passes : p n = true
        · rw [List.filter_cons_of_pos passes, List.filter_nil]
          by_cases room : (List.range n).countP p < c
          · have one : [n].length ≤ c - (List.range n).countP p := Nat.sub_pos_of_lt room
            rw [List.take_of_length_le one]
            simp [passes, room]
          · rw [Nat.sub_eq_zero_of_le (Nat.not_lt.mp room)]
            simp [room]
        · rw [List.filter_cons_of_neg passes, List.filter_nil, List.take_nil]
          simp [passes]
      rw [List.range_succ, List.filter_append, List.take_append, List.mem_append, ih,
        ← List.countP_eq_length_filter, last, Nat.lt_succ_iff_lt_or_eq]
      constructor
      · rintro (⟨below, rest⟩ | ⟨rfl, rest⟩)
        · exact ⟨.inl below, rest⟩
        · exact ⟨.inr rfl, rest⟩
      · rintro ⟨below | rfl, rest⟩
        · exact .inl ⟨below, rest⟩
        · exact .inr ⟨rfl, rest⟩

/-- The first that pass are the wanted ones exactly when each wanted one passes, they are not too many,
and whatever else passes has enough of them before it. -/
theorem chosen_iff (inside : ∀ g, q g = true → g < n) :
    (∀ g, g ∈ ((List.range n).filter p).take c ↔ q g = true) ↔
      (∀ g, q g = true → p g = true) ∧ (List.range n).countP q ≤ c ∧
        ∀ g < n, p g = true → q g = false → c ≤ (List.range g).countP q := by
  simp only [mem_take_filter_range]
  constructor
  · intro chosen
    refine ⟨fun g wanted => ((chosen g).mpr wanted).2.1, ?_, ?_⟩
    · have among : (List.range n).filter q ⊆ ((List.range n).filter p).take c := by
        intro g mem
        exact mem_take_filter_range.mpr ((chosen g).mpr (List.mem_filter.mp mem).2)
      have few := (List.subperm_of_subset (List.nodup_range.filter q) among).length_le
      rw [List.length_take] at few
      rw [List.countP_eq_length_filter]
      omega
    · intro g below passes unwanted
      have behind : c ≤ (List.range g).countP p := by
        by_contra early
        have wanted := (chosen g).mp ⟨below, passes, Nat.not_le.mp early⟩
        rw [unwanted] at wanted
        cases wanted
      have among : ((List.range g).filter p).take c ⊆ (List.range g).filter q := by
        intro h mem
        obtain ⟨before, first⟩ := mem_take_filter_range.mp mem
        have wanted := (chosen h).mp ⟨Nat.lt_trans before below, first⟩
        exact List.mem_filter.mpr ⟨List.mem_range.mpr before, wanted⟩
      have nodup := (List.nodup_range.filter p).sublist (List.take_sublist c (List.filter p (List.range g)))
      have many := (List.subperm_of_subset nodup among).length_le
      rw [List.length_take_of_le (by rw [← List.countP_eq_length_filter]; exact behind)] at many
      rw [List.countP_eq_length_filter]
      exact many
  · rintro ⟨passes, few, others⟩ g
    constructor
    · rintro ⟨below, here, early⟩
      by_contra unwanted
      have behind := others g below here (Bool.not_eq_true _ ▸ unwanted)
      have fewer : (List.range g).countP q ≤ (List.range g).countP p :=
        List.countP_mono_left fun h _ wanted => passes h wanted
      omega
    · intro wanted
      have below := inside g wanted
      have room := countP_range_lt below wanted
      have same : (List.range g).countP p = (List.range g).countP q := by
        apply List.countP_congr
        intro h mem
        constructor
        · intro here
          by_contra unwanted
          have before := List.mem_range.mp mem
          have behind := others h (Nat.lt_trans before below) here (Bool.not_eq_true _ ▸ unwanted)
          have more := countP_range_le (p := q) (Nat.le_of_lt before)
          omega
        · exact passes h
      refine ⟨below, passes g wanted, ?_⟩
      omega

end Choose

/-! ### Filling -/

section Fill

variable [DecidableEq α]

/-- Append what is not there yet, while there is room. -/
def fill (cap : Nat) (items acc : List α) : List α :=
  items.foldl (fun acc a => if cap ≤ acc.length then acc else if a ∈ acc then acc else acc ++ [a]) acc

/-- A full list stays as it is. -/
theorem fill_full {cap : Nat} {acc : List α} (full : cap ≤ acc.length) :
    ∀ items : List α, fill cap items acc = acc
  | [] => rfl
  | a :: rest => by
      change fill cap rest (if cap ≤ acc.length then acc else _) = acc
      rw [if_pos full]
      exact fill_full full rest

/-- What is there already is not appended again. -/
theorem fill_known {cap : Nat} {acc : List α} :
    ∀ {items : List α}, (∀ a ∈ items, a ∈ acc) → fill cap items acc = acc
  | [], _ => rfl
  | a :: rest, known => by
      have here : a ∈ acc := known a (List.mem_cons_self ..)
      have later : ∀ a ∈ rest, a ∈ acc := fun a mem => known a (List.mem_cons_of_mem _ mem)
      change fill cap rest (if cap ≤ acc.length then acc else if a ∈ acc then acc else _) = acc
      rw [if_pos here, ite_self]
      exact fill_known later

/-- New items are appended as far as the cap goes. -/
theorem fill_fresh {cap : Nat} :
    ∀ {items acc : List α}, items.Nodup → (∀ a ∈ items, a ∉ acc) → acc.length ≤ cap →
      fill cap items acc = (acc ++ items).take cap
  | [], acc, _, _, fits => by
      rw [List.append_nil, List.take_of_length_le fits]
      rfl
  | a :: rest, acc, nodup, fresh, fits => by
      by_cases full : cap ≤ acc.length
      · have exact_fit : acc.length = cap := Nat.le_antisymm fits full
        rw [fill_full full, ← exact_fit, List.take_left]
      · have new : a ∉ acc := fresh a (List.mem_cons_self ..)
        obtain ⟨absent, nodupRest⟩ := List.nodup_cons.mp nodup
        have freshRest : ∀ b ∈ rest, b ∉ acc ++ [a] := by
          intro b mem inside
          rcases List.mem_append.mp inside with old | last
          · exact fresh b (List.mem_cons_of_mem _ mem) old
          · exact absent (List.mem_singleton.mp last ▸ mem)
        have fitsRest : (acc ++ [a]).length ≤ cap := by
          rw [List.length_append]
          exact Nat.not_le.mp full
        change fill cap rest (if cap ≤ acc.length then acc else if a ∈ acc then acc else _) = _
        rw [if_neg full, if_neg new, fill_fresh nodupRest freshRest fitsRest, List.append_assoc]
        rfl

end Fill

/-! ### Blocks -/

/-- A list has all of a block, or nothing of it. -/
def Whole (list block : List α) : Prop := (∃ a ∈ block, a ∈ list) → ∀ a ∈ block, a ∈ list

/-- The cap cuts no block: one that begins before the cap ends before it. -/
def Uncut (cap : Nat) (blocks : List (List α)) : Prop :=
  ∀ before block after, blocks = before ++ block :: after → before.flatten.length < cap →
    before.flatten.length + block.length ≤ cap

/-- A cap that everything fits under cuts nothing. -/
theorem uncut_of_length {cap : Nat} {blocks : List (List α)} (fits : blocks.flatten.length ≤ cap) :
    Uncut cap blocks := by
  rintro before block after rfl _
  simp only [List.flatten_append, List.flatten_cons, List.length_append] at fits
  omega

/-- The beginning of a list of blocks has each of them whole or not at all exactly when the cap cuts
none. -/
theorem whole_take_iff {cap : Nat} {blocks : List (List α)} (nodup : blocks.flatten.Nodup) :
    (∀ block ∈ blocks, Whole (blocks.flatten.take cap) block) ↔ Uncut cap blocks := by
  -- where a block stands, and that nothing of it stands in front of it
  have placed : ∀ before block after, blocks = before ++ block :: after →
      blocks.flatten = before.flatten ++ (block ++ after.flatten) ∧ block.Nodup ∧
        ∀ a ∈ block, a ∉ before.flatten := by
    rintro before block after rfl
    have flat : (before ++ block :: after).flatten =
        before.flatten ++ (block ++ after.flatten) := by
      rw [List.flatten_append, List.flatten_cons]
    rw [flat] at nodup
    obtain ⟨-, rest, apart⟩ := List.nodup_append.mp nodup
    refine ⟨flat, (List.nodup_append.mp rest).1, fun a mem earlier => ?_⟩
    exact apart a earlier a (List.mem_append_left _ mem) rfl
  constructor
  · intro whole before block after split begins
    obtain ⟨flat, nodupBlock, fresh⟩ := placed before block after split
    have mem : block ∈ blocks := by
      rw [split]
      exact List.mem_append_right _ (List.mem_cons_self ..)
    cases first : block with
    | nil => exact Nat.le_of_lt begins
    | cons a rest =>
        rw [← first]
        have inBlock : a ∈ block := by
          rw [first]
          exact List.mem_cons_self ..
        by_contra cut
        have taken : blocks.flatten.take cap =
            before.flatten ++ block.take (cap - before.flatten.length) := by
          rw [flat, List.take_append, List.take_of_length_le (Nat.le_of_lt begins),
            List.take_append_of_le_length (by omega)]
        have begun : a ∈ blocks.flatten.take cap := by
          obtain ⟨k, more⟩ : ∃ k, cap - before.flatten.length = k + 1 :=
            ⟨cap - before.flatten.length - 1, by omega⟩
          rw [taken, more, first]
          exact List.mem_append_right _ (List.mem_cons_self ..)
        have inside : block ⊆ block.take (cap - before.flatten.length) := by
          intro b mem'
          have here := whole block mem ⟨a, inBlock, begun⟩ b mem'
          rw [taken] at here
          rcases List.mem_append.mp here with earlier | later
          · exact absurd earlier (fresh b mem')
          · exact later
        have short := (List.subperm_of_subset nodupBlock inside).length_le
        rw [List.length_take] at short
        omega
  · intro uncut block mem
    rintro ⟨a, inBlock, taken⟩ b inBlock'
    obtain ⟨before, after, split⟩ := List.append_of_mem mem
    obtain ⟨flat, -, fresh⟩ := placed before block after split
    rw [flat] at taken ⊢
    have begins : before.flatten.length < cap := by
      by_contra ended
      rw [List.take_append_of_le_length (Nat.not_lt.mp ended)] at taken
      exact fresh a inBlock (List.mem_of_mem_take taken)
    have ends := uncut before block after split begins
    rw [← List.append_assoc, List.take_append,
      List.take_of_length_le (by rw [List.length_append]; exact ends)]
    exact List.mem_append_left _ (List.mem_append_right _ inBlock')

/-! ### Sieves -/

/-- The items that do not come too late for those before them, dropped or not. -/
def sieve (late : List α → α → Bool) : List α → List α → List α
  | _, [] => []
  | earlier, a :: rest =>
      if late earlier a then sieve late (earlier ++ [a]) rest
      else a :: sieve late (earlier ++ [a]) rest

section Sieve

variable {late : List α → α → Bool} (f : α → List β)

theorem sieve_sublist (earlier items : List α) : (sieve late earlier items).Sublist items := by
  induction items generalizing earlier with
  | nil => exact List.Sublist.refl _
  | cons a rest ih =>
      unfold sieve
      split
      · exact (ih _).cons a
      · exact (ih _).cons_cons a

/-- When only items without results come too late, all results are there. -/
theorem flatMap_sieve {earlier items : List α}
    (nothing : ∀ before a after, items = before ++ a :: after →
      late (earlier ++ before) a = true → f a = []) :
    (sieve late earlier items).flatMap f = items.flatMap f := by
  induction items generalizing earlier with
  | nil => rfl
  | cons a rest ih =>
      have later : (sieve late (earlier ++ [a]) rest).flatMap f = rest.flatMap f := by
        apply ih
        intro before b after split tooLate
        apply nothing (a :: before) b after (by rw [split]; rfl)
        simpa using tooLate
      unfold sieve
      split
      · rename_i tooLate
        have none : f a = [] := nothing [] a rest rfl (by simpa using tooLate)
        rw [List.flatMap_cons, none, later]
        rfl
      · rw [List.flatMap_cons, List.flatMap_cons, later]

/-- When there are as many results as there can be, only items without results come too late. -/
theorem nothing_late {earlier items : List α}
    (all : (items.flatMap f).length ≤ ((sieve late earlier items).flatMap f).length) :
    ∀ before a after, items = before ++ a :: after → late (earlier ++ before) a = true →
      f a = [] := by
  induction items generalizing earlier with
  | nil =>
      intro before a after split
      simp at split
  | cons b rest ih =>
      have most : ((sieve late (earlier ++ [b]) rest).flatMap f).length ≤
          (rest.flatMap f).length := ((sieve_sublist _ rest).flatMap f).length_le
      have rest_all : (rest.flatMap f).length ≤
          ((sieve late (earlier ++ [b]) rest).flatMap f).length := by
        unfold sieve at all
        split at all
        all_goals
          simp only [List.flatMap_cons, List.length_append] at all
          omega
      intro before a after split tooLate
      cases before with
      | nil =>
          have ⟨same, _⟩ := List.cons.inj split
          rw [List.append_nil, ← same] at tooLate
          unfold sieve at all
          rw [if_pos tooLate, List.flatMap_cons, List.length_append] at all
          have none : (f b).length = 0 := by omega
          rw [← same]
          exact List.length_eq_zero_iff.mp none
      | cons c before =>
          have ⟨same, split⟩ := List.cons.inj split
          apply ih rest_all before a after split
          rw [List.append_assoc, same]
          exact tooLate

end Sieve

end Lib
