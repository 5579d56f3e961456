import Mathlib.Data.List.Chain
import Mathlib.Data.List.Nodup
import Mathlib.Data.List.Perm.Basic
import Mathlib.Logic.Relation
import Mathlib.Tactic.Common

/-!
# Chains of parent links

Each of several entries has a name, and may name another as its parent. They form one chain when
no two have the same name or the same parent, one of them has no parent, and all others are
reached from it (`SingleChain`). `singleChain_iff`: this is so exactly when they can be put in an
order that begins without a parent and in which each entry is the parent of the next
(`IsParentChain`).
-/

namespace ParentLinks

open Relation

variable {κ : Type*}

/-- A name, and the name of the parent. -/
abbrev Link (κ : Type*) : Type _ := κ × Option κ

/-- The first is the parent of the second. -/
def Follows (a b : Link κ) : Prop := b.2 = some a.1

/-- Distinct names, from an entry without a parent each to its child. -/
structure IsParentChain (chain : List (Link κ)) : Prop where
  names : (chain.map Prod.fst).Nodup
  root : ∃ first ∈ chain.head?, first.2 = none
  linked : chain.IsChain Follows

/-- The entries form one chain, in whatever order they are given. -/
structure SingleChain (links : List (Link κ)) : Prop where
  names : (links.map Prod.fst).Nodup
  root : ∃! link, link ∈ links ∧ link.2 = none
  parents : (links.filterMap Prod.snd).Nodup
  reachable : ∀ link ∈ links, ∃ root ∈ links, root.2 = none ∧
    ReflTransGen (fun a b => (b, some a) ∈ links) root.1 link.1

section Chain

variable {first : Link κ} {rest : List (Link κ)}

/-- Behind the first entry, the parents are the names before. -/
theorem parents_eq (h : (first :: rest).IsChain Follows) :
    rest.map Prod.snd = ((first :: rest).dropLast.map Prod.fst).map some := by
  induction rest generalizing first with
  | nil => rfl
  | cons second rest ih =>
    obtain ⟨hfollows, htail⟩ := List.isChain_cons_cons.mp h
    rw [List.dropLast_cons_of_ne_nil (List.cons_ne_nil _ _), List.map_cons, ih htail, List.map_cons,
      List.map_cons, hfollows]

theorem filterMap_parents (h : (first :: rest).IsChain Follows) :
    rest.filterMap Prod.snd = (first :: rest).dropLast.map Prod.fst := by
  have hmap : rest.filterMap Prod.snd = (rest.map Prod.snd).filterMap id := by
    rw [List.filterMap_map]
    rfl
  rw [hmap, parents_eq h, List.filterMap_map]
  exact List.filterMap_some

theorem parent_ne_none (h : (first :: rest).IsChain Follows) : ∀ link ∈ rest, link.2 ≠ none := by
  intro link hlink hnone
  have hmem : link.2 ∈ rest.map Prod.snd := List.mem_map_of_mem hlink
  rw [parents_eq h, hnone] at hmem
  obtain ⟨name, -, hname⟩ := List.mem_map.mp hmem
  cases hname

variable {links : List (Link κ)}

/-- The first entry reaches all others. -/
theorem reaches_of_isChain (h : (first :: rest).IsChain Follows)
    (hlinks : ∀ link ∈ rest, link ∈ links) :
    ∀ link ∈ first :: rest, ReflTransGen (fun a b => (b, some a) ∈ links) first.1 link.1 := by
  induction rest generalizing first with
  | nil => simp [ReflTransGen.refl]
  | cons second rest ih =>
    obtain ⟨hfollows, htail⟩ := List.isChain_cons_cons.mp h
    have hedge : (second.1, some first.1) ∈ links := by
      have := hlinks second List.mem_cons_self
      rwa [← hfollows]
    intro link hlink
    rcases List.mem_cons.mp hlink with rfl | hlink
    · exact .refl
    · exact .head hedge (ih htail (fun l hl => hlinks l (List.mem_cons_of_mem _ hl)) link hlink)

/-- A chain is one in any order. -/
theorem IsParentChain.singleChain {chain : List (Link κ)} (h : IsParentChain chain)
    (hperm : chain.Perm links) : SingleChain links := by
  obtain ⟨first, hfst, hnone⟩ := h.root
  obtain ⟨rest, rfl⟩ : ∃ rest, chain = first :: rest := List.head?_eq_some_iff.mp hfst
  refine ⟨(hperm.map Prod.fst).nodup_iff.mp h.names,
      ⟨first, ⟨hperm.mem_iff.mp List.mem_cons_self, hnone⟩, ?_⟩, ?_, ?_⟩
  · rintro link ⟨hlink, hroot⟩
    rcases List.mem_cons.mp (hperm.mem_iff.mpr hlink) with rfl | hlink
    · rfl
    · exact absurd hroot (parent_ne_none h.linked link hlink)
  · rw [← (hperm.filterMap Prod.snd).nodup_iff, List.filterMap_cons_none hnone,
      filterMap_parents h.linked]
    exact h.names.sublist ((List.dropLast_sublist _).map Prod.fst)
  · intro link hlink
    exact ⟨first, hperm.mem_iff.mp List.mem_cons_self, hnone, reaches_of_isChain h.linked
      (fun l hl => hperm.mem_iff.mp (List.mem_cons_of_mem _ hl)) link (hperm.mem_iff.mpr hlink)⟩

end Chain

section Single

variable {links : List (Link κ)}

variable {a b : Link κ}

theorem SingleChain.eq_of_name (h : SingleChain links) (ha : a ∈ links) (hb : b ∈ links)
    (hname : a.1 = b.1) : a = b := List.inj_on_of_nodup_map h.names ha hb hname

/-- An entry is the parent of one at most. -/
theorem SingleChain.eq_of_parent (h : SingleChain links) {parent : κ} (ha : a ∈ links)
    (hb : b ∈ links) (hpar : a.2 = some parent) (hpar' : b.2 = some parent) : a = b := by
  by_contra hne
  obtain ⟨before, after, rfl⟩ := List.append_of_mem ha
  have hb' : b ∈ before ++ after := by
    rcases List.mem_append.mp hb with hb | hb
    · exact List.mem_append_left _ hb
    · exact List.mem_append_right _ ((List.mem_cons.mp hb).resolve_left (Ne.symm hne))
  have hnd : (parent :: (before ++ after).filterMap Prod.snd).Nodup := by
    rw [← List.filterMap_cons_some hpar]
    exact (List.perm_middle.filterMap Prod.snd).nodup_iff.mp h.parents
  exact (List.nodup_cons.mp hnd).1 (List.mem_filterMap.mpr ⟨b, hb', hpar'⟩)

/-- A chain within the entries that no child of its last entry leads out of holds all of them. -/
theorem SingleChain.mem_of_closed (h : SingleChain links) {first last : Link κ}
    {rest before : List (Link κ)} (hchain : IsParentChain (first :: rest))
    (hsub : ∀ link ∈ first :: rest, link ∈ links) (hlast : first :: rest = before ++ [last])
    (hcl : ∀ link ∈ links, link.2 = some last.1 → link.1 ∈ (first :: rest).map Prod.fst) :
    ∀ link ∈ links, link ∈ first :: rest := by
  have hnone : first.2 = none := by
    obtain ⟨root, hroot, hnone⟩ := hchain.root
    obtain rfl := Option.some.inj hroot
    exact hnone
  intro link hlink
  obtain ⟨root, hroot, hrootNone, hreach⟩ := h.reachable link hlink
  obtain rfl : root = first :=
    h.root.unique ⟨hroot, hrootNone⟩ ⟨hsub first List.mem_cons_self, hnone⟩
  -- along the path the names stay in the chain
  have hname : link.1 ∈ (root :: rest).map Prod.fst := by
    generalize link.1 = name at hreach
    induction hreach with
    | refl => exact List.mem_cons_self
    | @tail a b _ hedge ih =>
      obtain ⟨parent, hpar, rfl⟩ := List.mem_map.mp ih
      rcases List.mem_append.mp (hlast ▸ hpar) with hbef | hpar
      · -- the parent has a child in the chain already
        obtain ⟨earlier, later, hspl⟩ := List.append_of_mem hbef
        obtain ⟨child, tail, htail⟩ : ∃ child tail, later ++ [last] = child :: tail :=
          List.exists_cons_of_ne_nil (by simp)
        have hwhole : root :: rest = earlier ++ parent :: child :: tail := by
          rw [hlast, hspl, ← htail]
          simp
        have hfollows : Follows parent child := by
          have hlinked := hchain.linked
          rw [hwhole] at hlinked
          exact (List.isChain_cons_cons.mp (hlinked.right_of_append)).1
        have hchild : child ∈ root :: rest := by simp [hwhole]
        have := h.eq_of_parent hedge (hsub child hchild) rfl hfollows
        exact List.mem_map.mpr ⟨child, hchild, by rw [← this]⟩
      · obtain rfl := List.mem_singleton.mp hpar
        exact hcl _ hedge rfl
  obtain ⟨other, hother, heq⟩ := List.mem_map.mp hname
  rwa [← h.eq_of_name (hsub other hother) hlink heq]

/-- Either the chain can be drawn out to some length, or it ends and holds all entries. -/
theorem SingleChain.exists_chain (h : SingleChain links) (n : ℕ) :
    ∃ chain, IsParentChain chain ∧ (∀ link ∈ chain, link ∈ links) ∧
      (chain.length = n + 1 ∨ ∀ link ∈ links, link ∈ chain) := by
  induction n with
  | zero =>
    obtain ⟨first, ⟨hfst, hnone⟩, -⟩ := h.root
    exact ⟨[first], ⟨List.nodup_singleton _, ⟨first, rfl, hnone⟩, .singleton _⟩, by simpa using hfst, .inl rfl⟩
  | succ n ih =>
    obtain ⟨chain, hchain, hsub, hlen | hall⟩ := ih
    · obtain ⟨first, hfst, -⟩ := id hchain.root
      obtain ⟨rest, rfl⟩ : ∃ rest, chain = first :: rest := List.head?_eq_some_iff.mp hfst
      obtain ⟨before, last, hlast⟩ : ∃ before last, first :: rest = before ++ [last] :=
        ⟨_, _, (List.dropLast_append_getLast (List.cons_ne_nil _ _)).symm⟩
      by_cases hcl : ∀ link ∈ links, link.2 = some last.1 → link.1 ∈ (first :: rest).map Prod.fst
      · exact ⟨_, hchain, hsub, .inr (h.mem_of_closed hchain hsub hlast hcl)⟩
      · push Not at hcl
        obtain ⟨next, hnext, hpar, hfresh⟩ := hcl
        refine ⟨first :: rest ++ [next], ⟨?_, ?_, ?_⟩, ?_, .inl (by simp at hlen; simp [hlen])⟩
        · rw [List.map_append, List.nodup_append]
          refine ⟨hchain.names, List.nodup_singleton _, ?_⟩
          rintro a ha b hb rfl
          exact hfresh (List.mem_singleton.mp hb ▸ ha)
        · simpa using hchain.root
        · rw [List.isChain_append]
          refine ⟨hchain.linked, .singleton _, ?_⟩
          simp [hlast, Follows, hpar]
        · intro link hlink
          rcases List.mem_append.mp hlink with hlink | hlink
          · exact hsub link hlink
          · rwa [List.mem_singleton.mp hlink]
    · exact ⟨chain, hchain, hsub, .inr hall⟩

/-- Entries form one chain exactly when some order of them is one. -/
theorem singleChain_iff : SingleChain links ↔ ∃ chain, chain.Perm links ∧ IsParentChain chain := by
  constructor
  · intro h
    obtain ⟨chain, hchain, hsub, hall⟩ := h.exists_chain links.length
    have hnd := hchain.names.of_map
    have hall : ∀ link ∈ links, link ∈ chain := by
      refine hall.resolve_left fun hlen => ?_
      have := (List.subperm_of_subset hnd hsub).length_le
      omega
    exact ⟨chain, (List.perm_ext_iff_of_nodup hnd h.names.of_map).mpr fun link => ⟨hsub link, hall link⟩, hchain⟩
  · rintro ⟨chain, hperm, hchain⟩
    exact hchain.singleChain hperm

end Single

end ParentLinks
