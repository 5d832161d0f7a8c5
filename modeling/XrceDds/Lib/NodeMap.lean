import Mathlib.Data.List.Nodup
import Mathlib.Data.Nat.Notation
import Mathlib.Order.Lattice

/-!
# Ordered maps with iterators

A map that keeps its entries in the order of their keys, each in a node of its own.  An iterator
designates a node, or the end of the map.  A node is never used again, so that an iterator to an
entry that was erased designates no entry, also when the key is there again.

`Ahead` says that a key is not yet behind an iterator.  A key that is there all the time is ahead of
the first entry (`ahead_first`), and stays ahead until an iterator meets it (`ahead_next`), whatever
entries come and go (`ahead_emplace_iff`, `ahead_erase`, `ahead_erase_next`).
-/

/-- An entry of an ordered map. -/
structure MapNode (κ β : Type) where
  key : κ
  node : ℕ
  value : β
  deriving DecidableEq, Repr

/-- An ordered map. -/
structure NodeMap (κ β : Type) [LinearOrder κ] where
  entries : List (MapNode κ β)
  fresh : ℕ
  sorted : entries.Pairwise fun x y => x.key < y.key
  node_lt : ∀ e ∈ entries, e.node < fresh
  node_inj : ∀ e ∈ entries, ∀ e' ∈ entries, e.node = e'.node → e = e'

namespace NodeMap

variable {κ β : Type} [LinearOrder κ]

/-- The map without entries. -/
def empty : NodeMap κ β := ⟨[], 0, .nil, by simp, by simp⟩

/-- The entry of a key. -/
def find (map : NodeMap κ β) (key : κ) : Option (MapNode κ β) :=
  map.entries.find? fun e => e.key = key

/-- The entry that an iterator designates. -/
def deref (map : NodeMap κ β) (it : ℕ) : Option (MapNode κ β) :=
  map.entries.find? fun e => e.node = it

/-- The iterator to the first entry. -/
def first (map : NodeMap κ β) : Option ℕ := map.entries.head?.map MapNode.node

/-- The iterator to the entry behind the node `it`. -/
def nextIn (it : ℕ) : List (MapNode κ β) → Option ℕ
  | [] => none
  | e :: es => if e.node = it then es.head?.map MapNode.node else nextIn it es

/-- The iterator behind the iterator `it`. -/
def next (map : NodeMap κ β) (it : ℕ) : Option ℕ := nextIn it map.entries

/-- The entries with one more, where its key belongs. -/
def insertIn (entry : MapNode κ β) : List (MapNode κ β) → List (MapNode κ β)
  | [] => [entry]
  | e :: es => if entry.key < e.key then entry :: e :: es else e :: insertIn entry es

/-- One entry more. -/
lemma mem_insertIn {entry e : MapNode κ β} {es : List (MapNode κ β)} :
    e ∈ insertIn entry es ↔ e = entry ∨ e ∈ es := by
  induction es with
  | nil => simp [insertIn]
  | cons x xs ih =>
    unfold insertIn
    split
    · exact List.mem_cons
    · rw [List.mem_cons, ih, List.mem_cons]
      tauto

/-- A new key keeps the order. -/
lemma sorted_insertIn {entry : MapNode κ β} {es : List (MapNode κ β)}
    (h : es.Pairwise fun x y => x.key < y.key) (hnew : ∀ e ∈ es, e.key ≠ entry.key) :
    (insertIn entry es).Pairwise fun x y => x.key < y.key := by
  induction es with
  | nil => exact List.pairwise_singleton _ _
  | cons x xs ih =>
    obtain ⟨hx, hxs⟩ := List.pairwise_cons.mp h
    unfold insertIn
    split
    · next hlt =>
      refine List.pairwise_cons.mpr ⟨fun e he => ?_, h⟩
      rcases List.mem_cons.mp he with rfl | he
      · exact hlt
      · exact hlt.trans (hx e he)
    · next hnot =>
      refine List.pairwise_cons.mpr ⟨fun e he => ?_, ih hxs fun e he => hnew e (.tail _ he)⟩
      rcases mem_insertIn.mp he with rfl | he
      · exact lt_of_le_of_ne (not_lt.mp hnot) (hnew x (.head _))
      · exact hx e he

/-- `emplace`: a key that is there already is left alone. -/
def emplace (map : NodeMap κ β) (key : κ) (value : β) : NodeMap κ β :=
  if h : ∀ e ∈ map.entries, e.key ≠ key then
    { entries := insertIn ⟨key, map.fresh, value⟩ map.entries
      fresh := map.fresh + 1
      sorted := sorted_insertIn map.sorted h
      node_lt := by
        intro e he
        rcases mem_insertIn.mp he with rfl | he
        · exact Nat.lt_succ_self _
        · exact (map.node_lt e he).trans (Nat.lt_succ_self _)
      node_inj := by
        intro e he e' he' heq
        rcases mem_insertIn.mp he with rfl | he
        · rcases mem_insertIn.mp he' with rfl | he'
          · rfl
          · exact absurd (map.node_lt e' he') (heq ▸ Nat.lt_irrefl _)
        · rcases mem_insertIn.mp he' with rfl | he'
          · exact absurd (map.node_lt e he) (heq ▸ Nat.lt_irrefl _)
          · exact map.node_inj e he e' he' heq }
  else map

/-- The assignment of a value to an entry: the node stays. -/
def assign (map : NodeMap κ β) (key : κ) (value : β) : NodeMap κ β where
  entries := map.entries.map fun e => if e.key = key then { e with value := value } else e
  fresh := map.fresh
  sorted := by
    refine List.pairwise_map.mpr (map.sorted.imp fun {x y} hlt => ?_)
    split <;> split <;> exact hlt
  node_lt := by
    intro e he
    obtain ⟨x, hx, rfl⟩ := List.mem_map.mp he
    have hlt := map.node_lt x hx
    split <;> exact hlt
  node_inj := by
    intro e he e' he' heq
    obtain ⟨x, hx, rfl⟩ := List.mem_map.mp he
    obtain ⟨y, hy, rfl⟩ := List.mem_map.mp he'
    have hnode : x.node = y.node := by
      revert heq
      split <;> split <;> exact id
    rw [map.node_inj x hx y hy hnode]

/-- `erase`. -/
def erase (map : NodeMap κ β) (key : κ) : NodeMap κ β where
  entries := map.entries.filter fun e => e.key ≠ key
  fresh := map.fresh
  sorted := map.sorted.filter _
  node_lt := fun e he => map.node_lt e (List.mem_filter.mp he).1
  node_inj := fun e he e' he' => map.node_inj e (List.mem_filter.mp he).1 e'
    (List.mem_filter.mp he').1

/-! ## Entries -/

variable {map : NodeMap κ β} {key k : κ} {value : β} {e e' : MapNode κ β}

/-- A key has one entry. -/
lemma eq_of_key (he : e ∈ map.entries) (he' : e' ∈ map.entries) (h : e.key = e'.key) : e = e' := by
  have hkeys : (map.entries.map MapNode.key).Nodup :=
    (List.pairwise_map.mpr map.sorted).imp fun hlt => hlt.ne
  exact List.inj_on_of_nodup_map hkeys he he' h

/-- What is found by a field that tells the elements of a list apart. -/
lemma find?_eq_some_iff_of_inj {α γ : Type} [DecidableEq γ] {f : α → γ} {l : List α}
    (hinj : ∀ x ∈ l, ∀ y ∈ l, f x = f y → x = y) {c : γ} {x : α} :
    (l.find? fun y => f y = c) = some x ↔ x ∈ l ∧ f x = c := by
  constructor
  · intro h
    have hx := List.find?_some h
    exact ⟨List.mem_of_find?_eq_some h, of_decide_eq_true hx⟩
  · rintro ⟨hx, rfl⟩
    cases hfind : l.find? fun y => f y = f x with
    | none => exact absurd (decide_eq_true rfl) (List.find?_eq_none.mp hfind x hx)
    | some y =>
      have hy := List.find?_some hfind
      rw [hinj y (List.mem_of_find?_eq_some hfind) x hx (of_decide_eq_true hy)]

/-- The entry of a key that is found. -/
lemma find_eq_some_iff : map.find key = some e ↔ e ∈ map.entries ∧ e.key = key :=
  find?_eq_some_iff_of_inj fun _ hx _ hy => eq_of_key hx hy

/-- The key of an entry is not found exactly when there is no such entry. -/
lemma find_eq_none_iff : map.find key = none ↔ ∀ e ∈ map.entries, e.key ≠ key := by
  unfold find
  rw [List.find?_eq_none]
  simp

/-- The entry that an iterator designates. -/
lemma deref_eq_some_iff {it : ℕ} : map.deref it = some e ↔ e ∈ map.entries ∧ e.node = it :=
  find?_eq_some_iff_of_inj map.node_inj

/-- The entries after `emplace`. -/
lemma mem_emplace_iff : e ∈ (map.emplace key value).entries ↔
    e ∈ map.entries ∨ (map.find key = none ∧ e = ⟨key, map.fresh, value⟩) := by
  rw [find_eq_none_iff]
  unfold emplace
  split
  · next hnew =>
    rw [mem_insertIn, or_comm, and_iff_right hnew]
  · next hold =>
    rw [iff_comm, or_iff_left fun h => hold h.1]

/-- The entries after an assignment. -/
lemma mem_assign_iff : e ∈ (map.assign key value).entries ↔
    ∃ x ∈ map.entries, e = if x.key = key then { x with value := value } else x := by
  unfold assign
  rw [List.mem_map]
  exact ⟨fun ⟨x, hx, h⟩ => ⟨x, hx, h.symm⟩, fun ⟨x, hx, h⟩ => ⟨x, hx, h.symm⟩⟩

/-- The entries after `erase`. -/
lemma mem_erase_iff : e ∈ (map.erase key).entries ↔ e ∈ map.entries ∧ e.key ≠ key := by
  unfold erase
  simp

/-- A key is there after `emplace`, in addition to those before. -/
lemma exists_key_emplace {key' : κ} : (∃ e ∈ (map.emplace key value).entries, e.key = key') ↔
    (∃ e ∈ map.entries, e.key = key') ∨ key' = key := by
  simp only [mem_emplace_iff]
  constructor
  · rintro ⟨e, he | ⟨-, rfl⟩, rfl⟩
    · exact .inl ⟨e, he, rfl⟩
    · exact .inr rfl
  · rintro (⟨e, he, rfl⟩ | rfl)
    · exact ⟨e, .inl he, rfl⟩
    · cases hfind : map.find key' with
      | none => exact ⟨_, .inr ⟨rfl, rfl⟩, rfl⟩
      | some e =>
        obtain ⟨he, hkey⟩ := find_eq_some_iff.mp hfind
        exact ⟨e, .inl he, hkey⟩

/-- An assignment keeps the keys. -/
lemma exists_key_assign {key' : κ} : (∃ e ∈ (map.assign key value).entries, e.key = key') ↔
    ∃ e ∈ map.entries, e.key = key' := by
  simp only [mem_assign_iff]
  constructor
  · rintro ⟨e, ⟨x, hx, rfl⟩, rfl⟩
    refine ⟨x, hx, ?_⟩
    split <;> rfl
  · rintro ⟨x, hx, rfl⟩
    refine ⟨_, ⟨x, hx, rfl⟩, ?_⟩
    split <;> rfl

/-- The other keys are there after `erase`. -/
lemma exists_key_erase {key' : κ} : (∃ e ∈ (map.erase key).entries, e.key = key') ↔
    (∃ e ∈ map.entries, e.key = key') ∧ key' ≠ key := by
  simp only [mem_erase_iff]
  constructor
  · rintro ⟨e, ⟨he, hne⟩, rfl⟩
    exact ⟨⟨e, he, rfl⟩, hne⟩
  · rintro ⟨⟨e, he, rfl⟩, hne⟩
    exact ⟨e, ⟨he, hne⟩, rfl⟩

/-! ## Iterators -/

/-- An iterator that is the end of the map, or designates an entry. -/
def Valid (map : NodeMap κ β) (it : Option ℕ) : Prop :=
  ∀ node, it = some node → ∃ e ∈ map.entries, e.node = node

/-- The iterator designates an entry of which the key is not above `k`. -/
def Ahead (map : NodeMap κ β) (it : Option ℕ) (k : κ) : Prop :=
  ∃ e ∈ map.entries, it = some e.node ∧ e.key ≤ k

/-- What is taken from the head of a list. -/
lemma exists_of_head?_map {α γ : Type} {f : α → γ} {l : List α} {c : γ}
    (h : l.head?.map f = some c) : ∃ x ∈ l, f x = c := by
  obtain ⟨x, hx, hf⟩ := Option.map_eq_some_iff.mp h
  exact ⟨x, List.mem_of_head? hx, hf⟩

/-- The first entry of a sorted part is not above the others. -/
lemma exists_head_le {es : List (MapNode κ β)} (hsorted : es.Pairwise fun x y => x.key < y.key)
    (he : e ∈ es) : ∃ x ∈ es, es.head?.map MapNode.node = some x.node ∧ x.key ≤ e.key := by
  cases es with
  | nil => cases he
  | cons x xs =>
    refine ⟨x, .head _, rfl, ?_⟩
    rcases List.mem_cons.mp he with rfl | he
    · exact le_rfl
    · exact ((List.pairwise_cons.mp hsorted).1 e he).le

/-- The entries behind a node. -/
lemma nextIn_spec {es : List (MapNode κ β)} (hsorted : es.Pairwise fun x y => x.key < y.key)
    (hinj : ∀ x ∈ es, ∀ y ∈ es, x.node = y.node → x = y) (he : e ∈ es) :
    (∀ x ∈ es, e.key < x.key →
        ∃ y ∈ es, nextIn e.node es = some y.node ∧ y.key ≤ x.key) ∧
      ∀ node, nextIn e.node es = some node → ∃ y ∈ es, y.node = node ∧ e.key < y.key := by
  induction es with
  | nil => cases he
  | cons z zs ih =>
    obtain ⟨hz, hzs⟩ := List.pairwise_cons.mp hsorted
    unfold nextIn
    by_cases hnode : z.node = e.node
    · obtain rfl := hinj z (.head _) e he hnode
      rw [if_pos rfl]
      constructor
      · intro x hx hlt
        have hx' : x ∈ zs := (List.mem_cons.mp hx).resolve_left fun heq => (heq ▸ hlt).false
        obtain ⟨y, hy, hnext, hle⟩ := exists_head_le hzs hx'
        exact ⟨y, .tail _ hy, hnext, hle⟩
      · intro node hnext
        obtain ⟨y, hy, rfl⟩ := exists_of_head?_map hnext
        exact ⟨y, .tail _ hy, rfl, hz y hy⟩
    · rw [if_neg hnode]
      have he' : e ∈ zs := (List.mem_cons.mp he).resolve_left fun heq => hnode (heq ▸ rfl)
      obtain ⟨hmeets, hbehind⟩ := ih hzs
        (fun x hx y hy => hinj x (.tail _ hx) y (.tail _ hy)) he'
      constructor
      · intro x hx hlt
        have hx' : x ∈ zs := (List.mem_cons.mp hx).resolve_left fun heq =>
          (hlt.trans (heq ▸ hz e he')).false
        obtain ⟨y, hy, hnext, hle⟩ := hmeets x hx' hlt
        exact ⟨y, .tail _ hy, hnext, hle⟩
      · intro node hnext
        obtain ⟨y, hy, hspec⟩ := hbehind node hnext
        exact ⟨y, .tail _ hy, hspec⟩

/-- Nothing is ahead of the end. -/
lemma not_ahead_none : ¬ map.Ahead none k := fun ⟨_, _, h, _⟩ => by cases h

/-- All that is there is ahead of the first entry. -/
lemma ahead_first (he : e ∈ map.entries) : map.Ahead map.first e.key :=
  exists_head_le map.sorted he

/-- What is there stays ahead when an iterator moves, but for the entry that it leaves. -/
lemma ahead_next (he : e ∈ map.entries) (he' : e' ∈ map.entries) (hne : e'.key ≠ e.key)
    (h : map.Ahead (some e.node) e'.key) : map.Ahead (map.next e.node) e'.key := by
  obtain ⟨x, hx, hnode, hle⟩ := h
  obtain rfl := map.node_inj e he x hx (Option.some.inj hnode)
  exact (nextIn_spec map.sorted map.node_inj he).1 e' he' (lt_of_le_of_ne hle hne.symm)

/-- What is ahead after an iterator has moved is above the entry that it left. -/
lemma lt_of_ahead_next (he : e ∈ map.entries) (h : map.Ahead (map.next e.node) k) : e.key < k := by
  obtain ⟨x, hx, hnext, hle⟩ := h
  obtain ⟨y, hy, hnode, hlt⟩ := (nextIn_spec map.sorted map.node_inj he).2 _ hnext
  obtain rfl := map.node_inj y hy x hx hnode
  exact hlt.trans_le hle

/-- The first entry is one. -/
lemma valid_first : map.Valid map.first := fun _ h => exists_of_head?_map h

/-- The entry behind another one is one. -/
lemma valid_next (he : e ∈ map.entries) : map.Valid (map.next e.node) := by
  intro node h
  obtain ⟨y, hy, hnode, -⟩ := (nextIn_spec map.sorted map.node_inj he).2 node h
  exact ⟨y, hy, hnode⟩

/-- What is ahead does not depend on entries that are new. -/
lemma ahead_emplace_iff {it : Option ℕ} (hit : map.Valid it) :
    (map.emplace key value).Ahead it k ↔ map.Ahead it k := by
  constructor
  · rintro ⟨x, hx, rfl, hle⟩
    obtain ⟨e, he, hnode⟩ := hit _ rfl
    rcases mem_emplace_iff.mp hx with hx | ⟨-, rfl⟩
    · exact ⟨x, hx, rfl, hle⟩
    · exact absurd (map.node_lt e he) (hnode ▸ Nat.lt_irrefl _)
  · rintro ⟨x, hx, hnode, hle⟩
    exact ⟨x, mem_emplace_iff.mpr (.inl hx), hnode, hle⟩

/-- Nor on the values. -/
lemma ahead_assign_iff {it : Option ℕ} : (map.assign key value).Ahead it k ↔ map.Ahead it k := by
  have hsame : ∀ x : MapNode κ β,
      (if x.key = key then { x with value := value } else x).node = x.node ∧
        (if x.key = key then { x with value := value } else x).key = x.key := by
    intro x
    split <;> exact ⟨rfl, rfl⟩
  constructor
  · rintro ⟨e, he, hnode, hle⟩
    obtain ⟨x, hx, rfl⟩ := mem_assign_iff.mp he
    rw [(hsame x).1] at hnode
    rw [(hsame x).2] at hle
    exact ⟨x, hx, hnode, hle⟩
  · rintro ⟨x, hx, hnode, hle⟩
    refine ⟨_, mem_assign_iff.mpr ⟨x, hx, rfl⟩, ?_, ?_⟩
    · rw [(hsame x).1]
      exact hnode
    · rw [(hsame x).2]
      exact hle

/-- What is ahead in a part of the map is ahead. -/
lemma Ahead.of_erase {it : Option ℕ} (h : (map.erase key).Ahead it k) : map.Ahead it k := by
  obtain ⟨x, hx, hnode, hle⟩ := h
  exact ⟨x, (mem_erase_iff.mp hx).1, hnode, hle⟩

/-- What is ahead of an entry that stays is ahead of it when another one is erased. -/
lemma ahead_erase (he : e ∈ map.entries) (hne : e.key ≠ key) (h : map.Ahead (some e.node) k) :
    (map.erase key).Ahead (some e.node) k := by
  obtain ⟨x, hx, hnode, hle⟩ := h
  obtain rfl := map.node_inj e he x hx (Option.some.inj hnode)
  exact ⟨e, mem_erase_iff.mpr ⟨he, hne⟩, rfl, hle⟩

/-- What is ahead of an entry that is erased is ahead of the one behind it. -/
lemma ahead_erase_next (he : e ∈ map.entries) (he' : e' ∈ map.entries) (hne : e'.key ≠ e.key)
    (h : map.Ahead (some e.node) e'.key) :
    (map.erase e.key).Ahead (map.next e.node) e'.key := by
  obtain ⟨y, hy, hnode, hle⟩ := ahead_next he he' hne h
  have hlt : e.key < y.key := lt_of_ahead_next he ⟨y, hy, hnode, le_rfl⟩
  exact ⟨y, mem_erase_iff.mpr ⟨hy, hlt.ne'⟩, hnode, hle⟩

/-- An iterator to an entry that is erased designates nothing. -/
lemma deref_erase_self (he : e ∈ map.entries) : (map.erase e.key).deref e.node = none := by
  cases hderef : (map.erase e.key).deref e.node with
  | none => rfl
  | some x =>
    obtain ⟨hx, hnode⟩ := deref_eq_some_iff.mp hderef
    obtain ⟨hmem, hne⟩ := mem_erase_iff.mp hx
    exact absurd (congrArg MapNode.key (map.node_inj x hmem e he hnode)) hne

/-- One entry less. -/
lemma length_erase_lt (he : e ∈ map.entries) :
    (map.erase e.key).entries.length < map.entries.length :=
  List.length_filter_lt_length_iff_exists.mpr ⟨e, he, by simp⟩

/-- Erasing a key leaves the iterators to other entries alone. -/
lemma valid_erase (he : e ∈ map.entries) (hne : e.key ≠ key) :
    (map.erase key).Valid (some e.node) := by
  rintro node ⟨⟩
  exact ⟨e, mem_erase_iff.mpr ⟨he, hne⟩, rfl⟩

/-- The entry behind one that is erased stays. -/
lemma valid_erase_next (he : e ∈ map.entries) :
    (map.erase e.key).Valid (map.next e.node) := by
  intro node h
  obtain ⟨y, hy, hnode, hlt⟩ := (nextIn_spec map.sorted map.node_inj he).2 node h
  exact ⟨y, mem_erase_iff.mpr ⟨hy, hlt.ne'⟩, hnode⟩

end NodeMap
