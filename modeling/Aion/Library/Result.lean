import Mathlib.Data.List.Perm.Basic

/-!
# Computations that may fail

Rules for `Except` computations that are known to have succeeded: a sequence has
succeeded in both its parts (`bind_eq_ok`), a loop that keeps a relation at each round keeps
it to the end (`foldlM_rel`), and a loop over a list in another order gives the same
results in another order (`mapM_perm`).
-/

namespace Result

variable {ε α β γ : Type}

variable {f : α → Except ε β} {results : List β} {items rest : List α} {item : α}

/-- A sequence that succeeds does so in both parts. -/
theorem bind_eq_ok {first : Except ε α} {value : β}
    (h : first >>= f = .ok value) : ∃ a, first = .ok a ∧ f a = .ok value := by
  cases first with
  | error e => cases h
  | ok a => exact ⟨a, rfl, h⟩

/-- **The loop rule**: a reflexive and transitive relation that each round keeps holds
between the start and the end of a loop that succeeds. -/
theorem foldlM_rel {f : β → γ → Except ε β} (R : β → β → Prop) (refl : ∀ b, R b b)
    (trans : ∀ a b c, R a b → R b c → R a c) {items : List γ}
    (round : ∀ b b', ∀ c ∈ items, f b c = .ok b' → R b b') {start final : β}
    (h : items.foldlM f start = .ok final) : R start final := by
  induction items generalizing start with
  | nil =>
    cases h
    exact refl _
  | cons item rest ih =>
    rw [List.foldlM_cons] at h
    obtain ⟨next, hnext, hrest⟩ := bind_eq_ok h
    have hfst := round start next item List.mem_cons_self hnext
    have hlat := ih (fun b b' c hc => round b b' c (List.mem_cons_of_mem _ hc)) hrest
    exact trans _ _ _ hfst hlat

/-- A loop is the loop over what its items stand for. -/
theorem foldlM_eq_foldlM_map {δ : Type} {f : β → γ → Except ε β} {g : β → δ → Except ε β}
    {h : γ → δ} {items : List γ} (hround : ∀ b, ∀ item ∈ items, f b item = g b (h item))
    (start : β) : items.foldlM f start = (items.map h).foldlM g start := by
  induction items generalizing start with
  | nil => rfl
  | cons item rest ih =>
    obtain ⟨hitem, hrest⟩ := forall_and.mp fun b => List.forall_mem_cons.mp (hround b)
    rw [List.map_cons, List.foldlM_cons, List.foldlM_cons, hitem]
    exact congrArg _ (funext fun next => ih hrest next)

/-- A loop whose every round succeeds does so. -/
theorem mapM_map_eq_ok {g : γ → α} {h : γ → β} {items : List γ}
    (hok : ∀ item ∈ items, f (g item) = .ok (h item)) :
    (items.map g).mapM f = .ok (items.map h) := by
  induction items with
  | nil => rfl
  | cons item rest ih =>
    obtain ⟨hitem, hrest⟩ := List.forall_mem_cons.mp hok
    rw [List.map_cons, List.mapM_cons, hitem, ih hrest]
    rfl

theorem mapM_cons_eq_ok (h : (item :: rest).mapM f = .ok results) :
    ∃ first later, f item = .ok first ∧ rest.mapM f = .ok later ∧ results = first :: later := by
  rw [List.mapM_cons] at h
  obtain ⟨first, hfst, h⟩ := bind_eq_ok h
  obtain ⟨later, hlat, h⟩ := bind_eq_ok h
  cases h
  exact ⟨first, later, hfst, hlat, rfl⟩

theorem mapM_cons_of_ok {first : β} {later : List β} (hfst : f item = .ok first)
    (hlat : rest.mapM f = .ok later) : (item :: rest).mapM f = .ok (first :: later) := by
  rw [List.mapM_cons, hfst, hlat]
  rfl

/-- A loop that succeeds has one result for each item. -/
theorem forall₂_of_mapM_eq_ok (h : items.mapM f = .ok results) :
    List.Forall₂ (fun item result => f item = .ok result) items results := by
  induction items generalizing results with
  | nil =>
    cases h
    exact .nil
  | cons item rest ih =>
    obtain ⟨first, later, hfst, hlat, rfl⟩ := mapM_cons_eq_ok h
    exact .cons hfst (ih hlat)

/-- A loop that only checks has checked every item. -/
theorem forM_eq_ok {f : α → Except ε Unit} (h : items.forM f = .ok ()) (hitem : item ∈ items) :
    f item = .ok () := by
  induction items with
  | nil => cases hitem
  | cons next rest ih =>
    obtain ⟨_, hnext, hrest⟩ := bind_eq_ok (List.forM_cons.symm.trans h)
    rcases List.mem_cons.mp hitem with rfl | hmem
    · exact hnext
    · exact ih hrest hmem

/-- Every result is that of an item. -/
theorem mem_of_mapM_eq_ok (h : items.mapM f = .ok results)
    {result : β} (hres : result ∈ results) : ∃ item ∈ items, f item = .ok result := by
  induction items generalizing results with
  | nil =>
    cases h
    cases hres
  | cons item rest ih =>
    obtain ⟨first, later, hfst, hlat, rfl⟩ := mapM_cons_eq_ok h
    rcases List.mem_cons.mp hres with rfl | hres
    · exact ⟨item, List.mem_cons_self, hfst⟩
    · obtain ⟨found, hfd, hres⟩ := ih hlat hres
      exact ⟨found, List.mem_cons_of_mem _ hfd, hres⟩

/-- Every item has its result. -/
theorem exists_of_mapM_eq_ok (h : items.mapM f = .ok results)
    (hitem : item ∈ items) : ∃ result ∈ results, f item = .ok result := by
  induction items generalizing results with
  | nil => cases hitem
  | cons next rest ih =>
    obtain ⟨first, later, hfst, hlat, rfl⟩ := mapM_cons_eq_ok h
    rcases List.mem_cons.mp hitem with rfl | hmem
    · exact ⟨first, List.mem_cons_self, hfst⟩
    · obtain ⟨result, hres, hfd⟩ := ih hlat hmem
      exact ⟨result, List.mem_cons_of_mem _ hres, hfd⟩

/-- A loop over the items in another order succeeds with the results in another order. -/
theorem mapM_perm {items' : List α} (hperm : items'.Perm items) (h : items.mapM f = .ok results) :
    ∃ results', items'.mapM f = .ok results' ∧ results'.Perm results := by
  induction hperm generalizing results with
  | nil => exact ⟨results, h, List.Perm.refl _⟩
  | cons item _ ih =>
    obtain ⟨first, later, hfst, hlat, rfl⟩ := mapM_cons_eq_ok h
    obtain ⟨later', hlat', hperm⟩ := ih hlat
    exact ⟨first :: later', mapM_cons_of_ok hfst hlat', hperm.cons first⟩
  | swap a b rest =>
    obtain ⟨first, later, hfst, hlat, rfl⟩ := mapM_cons_eq_ok h
    obtain ⟨second, rest', hsnd, hrest, rfl⟩ := mapM_cons_eq_ok hlat
    exact ⟨second :: first :: rest', mapM_cons_of_ok hsnd (mapM_cons_of_ok hfst hrest),
      List.Perm.swap first second rest'⟩
  | trans _ _ ih ih' =>
    obtain ⟨results', hresults', hperm'⟩ := ih' h
    obtain ⟨results'', hresults'', hperm''⟩ := ih hresults'
    exact ⟨results'', hresults'', hperm''.trans hperm'⟩

end Result
