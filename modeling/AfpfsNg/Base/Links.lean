import Mathlib.Data.List.Nodup
import Mathlib.Data.List.Perm.Subperm
import Mathlib.Logic.Function.Basic

/-!
# Singly linked lists

Nodes that point to each other: `next a` is the pointer in the node at address `a`, and `none` is the null pointer. `Segment
next s xs e` says that following the pointers from `s` one passes the nodes `xs`, in this order, and then holds the pointer
`e`; `Chain next s xs` is the case in which the list ends there.

Code that keeps a record of its accesses to nodes uses them properly if none is used or freed after it was freed (`Proper`).
`Cells` is the memory that nodes are taken from and given back to.
-/

namespace AfpfsNg.Base

variable {α : Type*}

/-- From the pointer `s` one passes the nodes `xs` and then holds `e`. -/
inductive Segment (next : α → Option α) : Option α → List α → Option α → Prop
  | nil (s) : Segment next s [] s
  | cons {a xs e} : Segment next (next a) xs e → Segment next (some a) (a :: xs) e

/-- From the pointer `s` one passes the nodes `xs` and then the list ends. -/
def Chain (next : α → Option α) (s : Option α) (xs : List α) : Prop := Segment next s xs none

/-- The first node of a list with the property `p`; `none` when the rounds are used up. -/
def search (next : α → Option α) (p : α → Bool) : Nat → Option α → Option (Option α)
  | 0, _ => none
  | _ + 1, none => some none
  | n + 1, some a => if p a then some (some a) else search next p n (next a)

def visited (next : α → Option α) (p : α → Bool) : Nat → Option α → List α
  | 0, _ => []
  | _ + 1, none => []
  | n + 1, some a => a :: if p a then [] else visited next p n (next a)

variable {next : α → Option α} {s m e b : Option α} {xs ys zs : List α} {a b' l : α}

lemma Segment.head_eq (h : Segment next s (a :: xs) e) : s = some a := by
  cases h
  rfl

lemma Segment.append (h : Segment next s xs m) (h' : Segment next m ys e) :
    Segment next s (xs ++ ys) e := by
  induction h with
  | nil => exact h'
  | cons _ ih => exact .cons (ih h')

lemma Segment.split (h : Segment next s (xs ++ ys) e) :
    ∃ m, Segment next s xs m ∧ Segment next m ys e := by
  induction xs generalizing s with
  | nil => exact ⟨s, .nil s, h⟩
  | cons x xs ih =>
    cases h with
    | cons h =>
      obtain ⟨m, hx, hy⟩ := ih h
      exact ⟨m, .cons hx, hy⟩

lemma Segment.congr {next' : α → Option α} (h : Segment next s xs e) (heq : ∀ a ∈ xs, next' a = next a) :
    Segment next' s xs e := by
  induction h with
  | nil s => exact .nil s
  | @cons x xs e _ ih =>
    apply Segment.cons
    rw [heq x (List.mem_cons_self ..)]
    exact ih fun a ha => heq a (List.mem_cons_of_mem _ ha)

lemma Segment.update [DecidableEq α] (h : Segment next s xs e) (ha : a ∉ xs) :
    Segment (Function.update next a b) s xs e :=
  h.congr fun _ hx => Function.update_of_ne (ne_of_mem_of_not_mem hx ha) ..

lemma Chain.nil : Chain next none [] := Segment.nil none

lemma Chain.unique (h : Chain next s xs) (h' : Chain next s ys) : xs = ys := by
  induction xs generalizing s ys with
  | nil =>
    cases h
    cases h'
    rfl
  | cons x xs ih =>
    cases h with
    | cons h =>
      cases h' with
      | cons h' => rw [ih h h']

lemma Chain.not_mem_tail (h : Chain next (some a) (a :: xs)) : a ∉ xs := by
  intro hmem
  obtain ⟨ys, zs, rfl⟩ := List.append_of_mem hmem
  cases h with
  | cons h =>
    obtain ⟨m, -, htail⟩ := h.split
    cases htail.head_eq
    have heq := Chain.unique (.cons h) htail
    have hlen := congrArg List.length heq
    simp only [List.length_cons, List.length_append] at hlen
    omega

lemma Chain.nodup (h : Chain next s xs) : xs.Nodup := by
  induction xs generalizing s with
  | nil => exact List.nodup_nil
  | cons x xs ih =>
    cases h with
    | cons h =>
      apply List.nodup_cons.mpr
      exact ⟨Chain.not_mem_tail (.cons h), ih h⟩

lemma Chain.search_find {p : α → Bool} {n : Nat} (h : Chain next s xs) (hn : xs.length < n) :
    search next p n s = some (xs.find? p) := by
  induction xs generalizing s n with
  | nil =>
    cases h
    obtain ⟨n, rfl⟩ := Nat.exists_eq_add_of_lt hn
    rfl
  | cons x xs ih =>
    cases h with
    | cons h =>
      obtain ⟨n, rfl⟩ := Nat.exists_eq_add_of_lt hn
      rw [List.find?_cons, search]
      cases hp : p x with
      | true => rfl
      | false => exact ih h (Nat.lt_of_succ_lt_succ hn)

lemma Chain.search_eq {p : α → Bool} {n : Nat} {found : Option α} (h : Chain next s xs)
    (hfound : search next p n s = some found) : found = xs.find? p := by
  induction n generalizing s xs with
  | zero => cases hfound
  | succ n ih =>
    cases h with
    | nil =>
      cases hfound
      rfl
    | @cons x xs _ h =>
      rw [search] at hfound
      rw [List.find?_cons]
      cases hp : p x with
      | true =>
        rw [hp] at hfound
        cases hfound
        rfl
      | false =>
        rw [hp] at hfound
        exact ih h hfound

lemma search_self {p : α → Bool} (hnext : next a = some a) (hp : p a = false) (n : Nat) : search next p n (some a) = none := by
  induction n with
  | zero => rfl
  | succ n ih =>
    rw [search, hp, hnext]
    exact ih

lemma Chain.visited_subset {p : α → Bool} {n : Nat} (h : Chain next s xs) : visited next p n s ⊆ xs := by
  induction n generalizing s xs with
  | zero => exact List.nil_subset xs
  | succ n ih =>
    cases h with
    | nil => exact List.nil_subset _
    | @cons x xs _ h =>
      rw [visited, List.cons_subset]
      refine ⟨List.mem_cons_self, ?_⟩
      split
      · exact List.nil_subset _
      · exact List.subset_cons_of_subset x (ih h)

lemma Chain.next_eq (h : Chain next s xs) (hl : l ∈ xs) (ha : next l = some a) :
    ∃ pre post, xs = pre ++ l :: a :: post := by
  obtain ⟨pre, rest, rfl⟩ := List.append_of_mem hl
  obtain ⟨m, -, hrest⟩ := h.split
  cases hrest with
  | cons hrest =>
    rw [ha] at hrest
    cases hrest with
    | @cons _ post => exact ⟨pre, post, rfl⟩

lemma Chain.exists_prev (h : Chain next s (b' :: xs)) (ha : a ∈ xs) : ∃ l ∈ b' :: xs, next l = some a := by
  obtain ⟨pre, post, rfl⟩ := List.append_of_mem ha
  rw [← List.cons_append] at h
  obtain ⟨pre', l, hpre⟩ : ∃ pre' l, b' :: pre = pre' ++ [l] :=
    ⟨_, _, (List.dropLast_concat_getLast (List.cons_ne_nil b' pre)).symm⟩
  rw [hpre, List.append_assoc] at h
  obtain ⟨m, -, hl⟩ := h.split
  refine ⟨l, ?_, ?_⟩
  · rw [← List.cons_append, hpre]
    exact List.mem_append_left _ (List.mem_append_right _ (List.mem_singleton_self l))
  · cases hl with
    | cons hl => exact hl.head_eq

section Update
variable [DecidableEq α]

lemma Chain.push (h : Chain next s xs) (ha : a ∉ xs) :
    Chain (Function.update next a s) (some a) (a :: xs) := by
  apply Segment.cons
  rw [Function.update_self]
  exact Segment.update h ha

lemma Chain.push_mem (h : Chain next s xs) (ha : a ∈ xs) :
    ¬ Chain (Function.update next a s) (some a) ys := by
  intro hy
  obtain ⟨pre, post, rfl⟩ := List.append_of_mem ha
  have hnot : a ∉ pre := by
    intro hpre
    have hnd := List.nodup_append.mp h.nodup
    exact hnd.2.2 a hpre a (List.mem_cons_self ..) rfl
  obtain ⟨m, hpre, hpost⟩ := h.split
  cases hpost.head_eq
  cases hy with
  | @cons _ zs _ hz =>
    rw [Function.update_self] at hz
    -- from `s` one comes to `a`, and from `a` to `s` again
    have hback : Chain (Function.update next a s) s (pre ++ a :: zs) := by
      apply (Segment.update hpre hnot).append
      apply Segment.cons
      rw [Function.update_self]
      exact hz
    have hlen := congrArg List.length (Chain.unique hz hback)
    simp only [List.length_cons, List.length_append] at hlen
    omega

lemma Chain.unlink (h : Chain next s (xs ++ l :: a :: ys)) :
    Chain (Function.update next l (next a)) s (xs ++ l :: ys) := by
  have hnd := h.nodup
  obtain ⟨m, hpre, hl⟩ := h.split
  cases hl with
  | cons hl =>
    rw [hl.head_eq] at hl
    cases hl with
    | cons hpost =>
      simp only [List.nodup_append, List.nodup_cons, List.mem_cons, not_or] at hnd
      apply Segment.append (Segment.update hpre fun hmem => hnd.2.2 l hmem l (.inl rfl) rfl)
      apply Segment.cons
      rw [Function.update_self]
      exact Segment.update hpost hnd.2.1.1.2

lemma Chain.splice (h : Chain next s (xs ++ [l])) (hb : Chain next b ys) (hl : l ∉ ys) :
    Chain (Function.update next l b) s (xs ++ l :: ys) := by
  have hnd := List.nodup_append.mp h.nodup
  obtain ⟨m, hpre, hlast⟩ := h.split
  cases hlast.head_eq
  apply Segment.append (Segment.update hpre fun hmem => hnd.2.2 l hmem l (List.mem_singleton_self l) rfl)
  apply Segment.cons
  rw [Function.update_self]
  exact Segment.update hb hl

lemma Chain.concat (h : Chain next s (xs ++ [l])) (ha : a ∉ xs ++ [l]) :
    Chain (Function.update (Function.update next l (some a)) a none) s (xs ++ [l] ++ [a]) := by
  have hne : a ≠ l := by
    rintro rfl
    exact ha (List.mem_append_right _ (List.mem_singleton_self a))
  have hsingle : Chain (Function.update next a none) (some a) [a] := Chain.push .nil List.not_mem_nil
  rw [← Function.update_comm hne, List.append_assoc]
  apply Chain.splice (Segment.update h ha) hsingle
  rw [List.mem_singleton]
  exact hne.symm

end Update

/-- From the pointer one comes to the node. -/
inductive Reaches (next : α → Option α) : Option α → α → Prop
  | here (a : α) : Reaches next (some a) a
  | step {a b : α} : Reaches next (next a) b → Reaches next (some a) b

lemma Chain.mem_of_reaches (h : Chain next s xs) (ha : Reaches next s a) : a ∈ xs := by
  induction ha generalizing xs with
  | here a =>
    cases h with
    | cons => exact List.mem_cons_self
  | step _ ih =>
    cases h with
    | cons h => exact List.mem_cons_of_mem _ (ih h)

lemma Chain.eq_head? (h : Chain next s xs) : s = xs.head? := by
  cases h with
  | nil => rfl
  | cons => rfl

inductive Access (α : Type*) where
  | use (a : α)
  | free (a : α)
  deriving DecidableEq, Repr

/-- No node is used or freed after it was freed; `freed` are those that were freed before. -/
def Proper : List α → List (Access α) → Prop
  | _, [] => True
  | freed, .use a :: rest => a ∉ freed ∧ Proper freed rest
  | freed, .free a :: rest => a ∉ freed ∧ Proper (a :: freed) rest

def Access.node : Access α → α
  | .use a => a
  | .free a => a

section Proper
variable {freed : List α} {acc rest : List (Access α)}

lemma proper_of_uses (h : ∀ x ∈ acc, ∃ a, a ∉ freed ∧ x = .use a) : Proper freed acc := by
  induction acc with
  | nil => exact trivial
  | cons x acc ih =>
    obtain ⟨⟨a, ha, rfl⟩, hrest⟩ := List.forall_mem_cons.mp h
    exact ⟨ha, ih hrest⟩

lemma Proper.left (h : Proper freed (acc ++ rest)) : Proper freed acc := by
  induction acc generalizing freed with
  | nil => exact trivial
  | cons x acc ih =>
    cases x with
    | use a => exact ⟨h.1, ih h.2⟩
    | free a => exact ⟨h.1, ih h.2⟩

lemma Proper.concat {x : Access α} (h : Proper freed acc) (hx : x.node ∉ freed) (hacc : .free x.node ∉ acc) :
    Proper freed (acc ++ [x]) := by
  induction acc generalizing freed with
  | nil =>
    cases x with
    | use a => exact ⟨hx, trivial⟩
    | free a => exact ⟨hx, trivial⟩
  | cons y acc ih =>
    rw [List.mem_cons, not_or] at hacc
    cases y with
    | use b => exact ⟨h.1, ih h.2 hx hacc.2⟩
    | free b =>
      refine ⟨h.1, ih h.2 ?_ hacc.2⟩
      rw [List.mem_cons, not_or]
      exact ⟨fun heq => hacc.1 (congrArg Access.free heq), hx⟩

lemma Proper.concat_uses {as : List α} (h : Proper [] acc) (has : ∀ a ∈ as, .free a ∉ acc) :
    Proper [] (acc ++ as.map .use) := by
  induction as generalizing acc with
  | nil => rwa [List.map_nil, List.append_nil]
  | cons a as ih =>
    rw [List.forall_mem_cons] at has
    rw [List.map_cons, List.append_cons]
    refine ih (h.concat List.not_mem_nil has.1) fun b hb hmem => ?_
    rw [List.mem_append, List.mem_singleton] at hmem
    exact hmem.elim (has.2 b hb) nofun

lemma Proper.not_freed (h : Proper freed (acc ++ .use a :: rest)) : a ∉ freed ∧ .free a ∉ acc := by
  induction acc generalizing freed with
  | nil => exact ⟨h.1, List.not_mem_nil⟩
  | cons x acc ih =>
    cases x with
    | use b =>
      obtain ⟨hfreed, hacc⟩ := ih h.2
      exact ⟨hfreed, List.not_mem_cons_of_ne_of_not_mem nofun hacc⟩
    | free b =>
      obtain ⟨hfreed, hacc⟩ := ih h.2
      rw [List.mem_cons, not_or] at hfreed
      refine ⟨hfreed.2, List.not_mem_cons_of_ne_of_not_mem (fun heq => ?_) hacc⟩
      exact hfreed.1 (Access.free.inj heq)

end Proper

/-- How many nodes there have been, and which of them were freed, the last one first. -/
structure Cells where
  made : Nat
  freed : List Nat
  freed_lt : ∀ a ∈ freed, a < made
  freed_nodup : freed.Nodup

def Cells.Live (c : Cells) (a : Nat) : Prop := a < c.made ∧ a ∉ c.freed

instance (c : Cells) (a : Nat) : Decidable (c.Live a) := inferInstanceAs (Decidable (_ ∧ _))

def Cells.none : Cells := ⟨0, [], nofun, List.nodup_nil⟩

def Cells.new (c : Cells) : Cells :=
  ⟨c.made + 1, c.freed, fun a ha => Nat.lt_succ_of_lt (c.freed_lt a ha), c.freed_nodup⟩

def Cells.free (c : Cells) (a : Nat) : Option Cells :=
  if h : c.Live a then
    some ⟨c.made, a :: c.freed, List.forall_mem_cons.mpr ⟨h.1, c.freed_lt⟩, List.nodup_cons.mpr ⟨h.2, c.freed_nodup⟩⟩
  else .none

section Cells
variable {c : Cells} {i j : Nat}

lemma Cells.live_new (c : Cells) : c.new.Live c.made :=
  ⟨Nat.lt_succ_self _, fun h => Nat.lt_irrefl _ (c.freed_lt _ h)⟩

lemma Cells.Live.new (h : c.Live i) : c.new.Live i := ⟨Nat.lt_succ_of_lt h.1, h.2⟩

lemma Cells.Live.free (h : c.Live i) :
    ∃ c', c.free i = some c' ∧ c'.made = c.made ∧ c'.freed = i :: c.freed ∧ ∀ j, j ≠ i → c.Live j → c'.Live j := by
  refine ⟨_, dif_pos h, rfl, rfl, ?_⟩
  intro j hne hj
  exact ⟨hj.1, fun hmem => (List.mem_cons.mp hmem).elim hne hj.2⟩

lemma Chain.length_le {next : Nat → Option Nat} {s : Option Nat} {xs : List Nat} {made : Nat} (h : Chain next s xs)
    (hmade : ∀ a ∈ xs, a < made) : xs.length ≤ made := by
  have hsub : xs ⊆ List.range made := fun a ha => List.mem_range.mpr (hmade a ha)
  have hle := (List.Nodup.subperm h.nodup hsub).length_le
  rwa [List.length_range] at hle

end Cells

end AfpfsNg.Base
