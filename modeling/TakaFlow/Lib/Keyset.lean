import Mathlib.Data.List.Sort
import Mathlib.Order.Basic

/-!
# Keyset pagination

Rows are listed by descending keys, a page at a time; the next page starts below the last key of the
one before it. Rows may be added between two pages, on either side of the last key.
-/

namespace Keyset

open scoped List

variable {α κ : Type} [LinearOrder κ] (key : α → κ)

/-! ### Listings -/

/-- `ORDER BY key DESC`. -/
def listing (rows : List α) : List α := rows.insertionSort fun a b => key b ≤ key a

/-- Strictly descending keys. -/
def Descending (l : List α) : Prop := l.Pairwise fun a b => key b < key a

variable {key} {rows l l' : List α} {a e : α}

lemma perm_listing (rows : List α) : listing key rows ~ rows := List.perm_insertionSort _ _

@[simp] lemma mem_listing : a ∈ listing key rows ↔ a ∈ rows := (perm_listing rows).mem_iff

lemma Descending.nodup (h : Descending key l) : (l.map key).Nodup :=
  List.pairwise_map.mpr (h.imp ne_of_gt)

lemma Descending.sublist (h : Descending key l) (hs : l'.Sublist l) : Descending key l' :=
  List.Pairwise.sublist hs h

/-- Different keys are listed in strictly descending order. -/
lemma descending_listing (h : (rows.map key).Nodup) : Descending key (listing key rows) := by
  have hsorted : (listing key rows).Pairwise fun a b => key b ≤ key a := by
    have : Std.Total fun a b : α => key b ≤ key a := ⟨fun a b => le_total (key b) (key a)⟩
    have : IsTrans α fun a b => key b ≤ key a := ⟨fun _ _ _ hab hbc => hbc.trans hab⟩
    exact List.pairwise_insertionSort _ rows
  have hdistinct : ((listing key rows).map key).Nodup :=
    (((perm_listing rows).map key).nodup_iff).mpr h
  exact hsorted.imp₂ (fun _ _ hle hne => lt_of_le_of_ne hle (Ne.symm hne))
    (List.pairwise_map.mp hdistinct)

/-- There is only one way to list rows in strictly descending order. -/
lemma Descending.eq_listing (h : Descending key l) (hp : l ~ rows) : listing key rows = l := by
  have hrows : (rows.map key).Nodup := ((hp.map key).nodup_iff).mp h.nodup
  refine List.Perm.eq_of_pairwise (fun a b _ _ hab hba => ?_) (descending_listing hrows) h
    ((perm_listing rows).trans hp.symm)
  exact absurd hab hba.not_gt

/-- Where a new row is listed. -/
lemma listing_append_singleton (h : ((rows ++ [e]).map key).Nodup) :
    ∃ newer older, listing key rows = newer ++ older ∧
      listing key (rows ++ [e]) = newer ++ e :: older ∧
      (newer = [] ↔ ∀ a ∈ rows, key a < key e) := by
  have hrows : (rows.map key).Nodup := by
    rw [List.map_append] at h
    exact h.of_append_left
  have hdesc := descending_listing h
  have hmem : e ∈ listing key (rows ++ [e]) := mem_listing.mpr (by simp)
  obtain ⟨newer, older, hsplit⟩ := List.append_of_mem hmem
  have hperm : newer ++ older ~ rows := by
    have hall : newer ++ e :: older ~ rows ++ [e] := hsplit ▸ perm_listing (rows ++ [e])
    have hcons : e :: (newer ++ older) ~ e :: rows :=
      (List.perm_middle.symm.trans hall).trans (List.perm_append_singleton e rows)
    exact hcons.cons_inv
  have hold : Descending key (newer ++ older) := by
    refine (hsplit ▸ hdesc).sublist ?_
    exact (List.Sublist.refl newer).append (List.sublist_cons_self e older)
  refine ⟨newer, older, hold.eq_listing hperm, hsplit, ?_⟩
  rw [hsplit, Descending, List.pairwise_append, List.pairwise_cons] at hdesc
  obtain ⟨-, ⟨holder, -⟩, hnewer⟩ := hdesc
  constructor
  · rintro rfl a ha
    exact holder a (hperm.mem_iff.mpr ha)
  · intro hall
    cases newer with
    | nil => rfl
    | cons f newer =>
      have hf : key e < key f := hnewer f List.mem_cons_self e List.mem_cons_self
      exact absurd (hall f (hperm.mem_iff.mp (by simp))) hf.not_gt

/-! ### Pages -/

variable (key) in
/-- The first `limit` rows below a key. -/
def page (limit : ℕ) (after : Option κ) (rows : List α) : List α :=
  (listing key (rows.filter fun a => after.all (key a < ·))).take limit

variable (key) in
/-- The key that the next page starts below, when one row more than fits has been found. -/
def next (limit : ℕ) (found : List α) : Option κ :=
  if found.length ≤ limit then none else (found.take limit).getLast?.map key

variable (key) in
/-- The pages that are read from these states, until there is no next page. -/
inductive Traversal (limit : ℕ) : Option κ → List (List α) → List (List α) → Prop where
  | last {after : Option κ} {rows : List α}
      (stop : next key limit (page key (limit + 1) after rows) = none) :
      Traversal limit after [rows] [page key limit after rows]
  | more {after : Option κ} {rows : List α} {reads pages : List (List α)} {k : κ}
      (follow : next key limit (page key (limit + 1) after rows) = some k)
      (rest : Traversal limit (some k) reads pages) :
      Traversal limit after (rows :: reads) (page key limit after rows :: pages)

section

variable {limit : ℕ} {after : Option κ} {k : κ}

/-- The rows below a key, listed. -/
lemma descending_below (after : Option κ) (h : (rows.map key).Nodup) :
    Descending key (listing key (rows.filter fun a => after.all (key a < ·))) :=
  descending_listing (h.sublist (List.filter_sublist.map key))

lemma mem_below :
    a ∈ listing key (rows.filter fun a => after.all (key a < ·)) ↔
      a ∈ rows ∧ ∀ k ∈ after, key a < k := by
  rw [mem_listing, List.mem_filter]
  cases after <;> simp

/-- The items of a page. -/
lemma take_page (limit : ℕ) (after : Option κ) (rows : List α) :
    (page key (limit + 1) after rows).take limit = page key limit after rows := by
  rw [page, page, List.take_take, min_eq_left (Nat.le_succ limit)]

/-- There is no next page iff all rows below the key are on this one. -/
lemma next_eq_none_iff (hlimit : 0 < limit) (h : (rows.map key).Nodup) :
    next key limit (page key (limit + 1) after rows) = none ↔
      ∀ a ∈ rows, (∀ k ∈ after, key a < k) → a ∈ page key limit after rows := by
  have hdesc := descending_below after h
  have hmem : ∀ a, a ∈ listing key (rows.filter fun a => after.all (key a < ·)) ↔
      a ∈ rows ∧ ∀ k ∈ after, key a < k := fun _ => mem_below
  unfold next
  rw [take_page]
  unfold page
  generalize listing key (rows.filter fun a => after.all (key a < ·)) = l at *
  rw [List.length_take]
  constructor
  · intro hnone a ha hbelow
    by_cases hlen : l.length ≤ limit
    · rw [List.take_of_length_le hlen]
      exact (hmem a).mpr ⟨ha, hbelow⟩
    · rw [if_neg (by omega)] at hnone
      have hnil : l.take limit = [] := by simpa using hnone
      rw [List.take_eq_nil_iff] at hnil
      obtain rfl | rfl := hnil
      · exact absurd hlimit (lt_irrefl 0)
      · exact absurd (Nat.zero_le limit) hlen
  · intro hall
    rw [if_pos]
    -- A row that is left over would be on the page, and listed twice.
    by_contra hlen
    have hlt : limit < l.length := by omega
    have hlast := hall l[limit] ((hmem _).mp (l.getElem_mem hlt)).1
      ((hmem _).mp (l.getElem_mem hlt)).2
    obtain ⟨i, hi, heq⟩ := List.mem_take_iff_getElem.mp hlast
    have hkeys : key l[limit] < key l[i] :=
      List.pairwise_iff_getElem.mp hdesc i limit (by omega) hlt (by omega)
    rw [heq] at hkeys
    exact lt_irrefl _ hkeys

/-- The next page starts below the last row of this one, and the rows left over are there. -/
lemma next_eq_some (h : (rows.map key).Nodup)
    (hnext : next key limit (page key (limit + 1) after rows) = some k) :
    (∀ b ∈ page key limit after rows, k ≤ key b) ∧ (∃ b ∈ page key limit after rows, key b = k) ∧
      (∀ a ∈ rows, (∀ k ∈ after, key a < k) → a ∈ page key limit after rows ∨ key a < k) ∧
        ∃ a ∈ rows, key a < k := by
  have hdesc := descending_below after h
  have hmem : ∀ a, a ∈ listing key (rows.filter fun a => after.all (key a < ·)) ↔
      a ∈ rows ∧ ∀ k ∈ after, key a < k := fun _ => mem_below
  unfold next at hnext
  rw [take_page] at hnext
  unfold page at *
  generalize listing key (rows.filter fun a => after.all (key a < ·)) = l at *
  split_ifs at hnext with hlen
  rw [List.length_take] at hlen
  obtain ⟨b, hlast, rfl⟩ := Option.map_eq_some_iff.mp hnext
  have hsplit : (l.take limit).dropLast ++ [b] = l.take limit :=
    List.dropLast_append_getLast? b hlast
  have hl : l = (l.take limit).dropLast ++ b :: l.drop limit := by
    conv_lhs => rw [← List.take_append_drop limit l, ← hsplit]
    simp
  have hleft : l.drop limit ≠ [] := by
    rw [Ne, List.drop_eq_nil_iff]
    omega
  generalize (l.take limit).dropLast = before at *
  generalize l.drop limit = rest at *
  rw [hl, Descending, List.pairwise_append, List.pairwise_cons] at hdesc
  obtain ⟨-, ⟨hrest, -⟩, hbefore⟩ := hdesc
  rw [← hsplit]
  refine ⟨fun c hc => ?_, ⟨b, by simp, rfl⟩, fun a ha hbelow => ?_, ?_⟩
  · obtain hc | hc := List.mem_append.mp hc
    · exact (hbefore c hc b List.mem_cons_self).le
    · rw [List.mem_singleton.mp hc]
  · have ha' := (hmem a).mpr ⟨ha, hbelow⟩
    rw [hl] at ha'
    obtain ha' | ha' := List.mem_append.mp ha'
    · exact .inl (List.mem_append_left _ ha')
    · obtain rfl | ha' := List.mem_cons.mp ha'
      · exact .inl (by simp)
      · exact .inr (hrest a ha')
  · obtain ⟨a, ha⟩ := List.exists_mem_of_ne_nil rest hleft
    have hrow : a ∈ l := by
      rw [hl]
      simp [ha]
    exact ⟨a, ((hmem a).mp hrow).1, hrest a ha⟩

namespace Traversal

variable {reads pages : List (List α)}

/-- The pages are listed in strictly descending order, below the key they start from. -/
lemma descending (h : Traversal key limit after reads pages)
    (hkeys : ∀ rows ∈ reads, (rows.map key).Nodup) :
    Descending key pages.flatten ∧ ∀ a ∈ pages.flatten, ∀ k ∈ after, key a < k := by
  induction h with
  | @last after rows stop =>
    rw [List.flatten_singleton]
    exact ⟨(descending_below _ (hkeys rows List.mem_cons_self)).sublist (List.take_sublist _ _),
      fun a ha => (mem_below.mp (List.mem_of_mem_take ha)).2⟩
  | @more after rows reads pages k follow rest ih =>
    rw [List.flatten_cons]
    obtain ⟨hdesc, hbelow⟩ := ih fun r hr => hkeys r (List.mem_cons_of_mem _ hr)
    have hrows := hkeys rows List.mem_cons_self
    obtain ⟨hle, ⟨b, hb, hbk⟩, -⟩ := next_eq_some hrows follow
    have hb' := (mem_below.mp (List.mem_of_mem_take hb)).2
    refine ⟨List.pairwise_append.mpr ⟨(descending_below _ hrows).sublist (List.take_sublist _ _),
      hdesc, fun c hc a ha => ?_⟩, fun a ha k' hk' => ?_⟩
    · exact (hbelow a ha k rfl).trans_le (hle c hc)
    · obtain ha | ha := List.mem_append.mp ha
      · exact (mem_below.mp (List.mem_of_mem_take ha)).2 k' hk'
      · exact (hbelow a ha k rfl).trans_le (hbk ▸ (hb' k' hk').le)

/-- A key that is there at every read is on one of the pages. -/
lemma complete (h : Traversal key limit after reads pages) (hlimit : 0 < limit)
    (hkeys : ∀ rows ∈ reads, (rows.map key).Nodup) {k₀ : κ}
    (hthere : ∀ rows ∈ reads, k₀ ∈ rows.map key) (hbelow : ∀ k ∈ after, k₀ < k) :
    k₀ ∈ pages.flatten.map key := by
  induction h with
  | @last after rows stop =>
    obtain ⟨a, ha, rfl⟩ := List.mem_map.mp (hthere rows List.mem_cons_self)
    rw [List.flatten_singleton]
    exact List.mem_map_of_mem
      ((next_eq_none_iff hlimit (hkeys rows List.mem_cons_self)).mp stop a ha hbelow)
  | @more after rows reads pages k follow rest ih =>
    obtain ⟨a, ha, rfl⟩ := List.mem_map.mp (hthere rows List.mem_cons_self)
    rw [List.flatten_cons, List.map_append]
    obtain ⟨-, -, hleft, -⟩ := next_eq_some (hkeys rows List.mem_cons_self) follow
    obtain hpage | hlt := hleft a ha hbelow
    · exact List.mem_append_left _ (List.mem_map_of_mem hpage)
    · refine List.mem_append_right _ (ih (fun r hr => hkeys r (List.mem_cons_of_mem _ hr))
        (fun r hr => hthere r (List.mem_cons_of_mem _ hr)) ?_)
      rintro k' ⟨rfl⟩
      exact hlt

/-- What is on a page was there when it was read. -/
lemma mem (h : Traversal key limit after reads pages) {i : ℕ} {rows items : List α}
    (hread : reads[i]? = some rows) (hpage : pages[i]? = some items) : items ⊆ rows := by
  have hsub : ∀ (after : Option κ) (rows : List α), page key limit after rows ⊆ rows :=
    fun after rows a ha => (mem_below.mp (List.mem_of_mem_take ha)).1
  induction h generalizing i with
  | @last after rows' stop =>
    cases i with
    | zero =>
      cases hread
      cases hpage
      exact hsub _ _
    | succ i => cases hread
  | @more after rows' reads pages k follow rest ih =>
    cases i with
    | zero =>
      cases hread
      cases hpage
      exact hsub _ _
    | succ i => exact ih hread hpage

/-- A page is the last one iff no row is left below the pages up to it. -/
lemma last_iff (h : Traversal key limit after reads pages) (hlimit : 0 < limit)
    (hkeys : ∀ rows ∈ reads, (rows.map key).Nodup) {i : ℕ} {rows : List α}
    (hread : reads[i]? = some rows) :
    i + 1 = pages.length ↔ ∀ a ∈ rows, (∀ k ∈ after, key a < k) →
      ∃ b ∈ (pages.take (i + 1)).flatten, key b ≤ key a := by
  induction h generalizing i with
  | @last after rows' stop =>
    cases i with
    | zero =>
      cases hread
      have hall := (next_eq_none_iff hlimit (hkeys rows List.mem_cons_self)).mp stop
      refine iff_of_true rfl fun a ha hbelow => ⟨a, ?_, le_refl _⟩
      simpa using hall a ha hbelow
    | succ i => cases hread
  | @more after rows' reads pages k follow rest ih =>
    have hrows := hkeys rows' List.mem_cons_self
    obtain ⟨hle, ⟨b, hb, hbk⟩, hleft, c, hc, hck⟩ := next_eq_some hrows follow
    have hk : ∀ k' ∈ after, k < k' := fun k' hk' =>
      hbk ▸ (mem_below.mp (List.mem_of_mem_take hb)).2 k' hk'
    cases i with
    | zero =>
      cases hread
      have hpages : 0 < pages.length := by cases rest <;> exact Nat.succ_pos _
      refine iff_of_false (by rw [List.length_cons]; omega) fun hall => ?_
      obtain ⟨a, ha, hac⟩ := hall c hc fun k' hk' => hck.trans (hk k' hk')
      rw [List.take_succ_cons, List.take_zero, List.flatten_singleton] at ha
      exact absurd ((hle a ha).trans hac) hck.not_ge
    | succ i =>
      have hrest := ih (fun r hr => hkeys r (List.mem_cons_of_mem _ hr)) hread
      rw [List.length_cons, Nat.add_right_cancel_iff, hrest]
      constructor
      · intro hall a ha hbelow
        by_cases hak : key a < k
        · obtain ⟨d, hd, hda⟩ := hall a ha fun k' hk' => Option.some.inj hk' ▸ hak
          exact ⟨d, by simp [hd], hda⟩
        · exact ⟨b, by simp [hb], hbk ▸ not_lt.mp hak⟩
      · intro hall a ha hak
        have hak := hak k rfl
        obtain ⟨d, hd, hda⟩ := hall a ha fun k' hk' => hak.trans (hk k' hk')
        rw [List.take_succ_cons, List.flatten_cons, List.mem_append] at hd
        obtain hd | hd := hd
        · exact absurd ((hle d hd).trans hda) hak.not_ge
        · exact ⟨d, hd, hda⟩

/-- Following the pages comes to an end, whatever is added meanwhile. -/
lemma terminates [WellFoundedLT κ] (limit : ℕ) (after : Option κ) (reads : ℕ → List α)
    (hkeys : ∀ n, ((reads n).map key).Nodup) :
    ∃ n pages, Traversal key limit after ((List.range n).map reads) pages := by
  have hstep : ∀ (after : Option κ) (reads : ℕ → List α), (∀ n, ((reads n).map key).Nodup) →
      (∀ k, (∀ k' ∈ after, k < k') → ∀ reads : ℕ → List α, (∀ n, ((reads n).map key).Nodup) →
        ∃ n pages, Traversal key limit (some k) ((List.range n).map reads) pages) →
      ∃ n pages, Traversal key limit after ((List.range n).map reads) pages := by
    intro after reads hkeys ih
    cases hnext : next key limit (page key (limit + 1) after (reads 0)) with
    | none => exact ⟨1, _, .last hnext⟩
    | some k =>
      obtain ⟨-, ⟨b, hb, rfl⟩, -⟩ := next_eq_some (hkeys 0) hnext
      have hbelow := (mem_below.mp (List.mem_of_mem_take hb)).2
      obtain ⟨n, pages, h⟩ := ih _ hbelow (fun n => reads (n + 1)) fun n => hkeys (n + 1)
      refine ⟨n + 1, page key limit after (reads 0) :: pages, ?_⟩
      rw [List.range_succ_eq_map, List.map_cons, List.map_map]
      exact .more hnext h
  have hsome : ∀ (k : κ) (reads : ℕ → List α), (∀ n, ((reads n).map key).Nodup) →
      ∃ n pages, Traversal key limit (some k) ((List.range n).map reads) pages := by
    intro k
    induction k using WellFoundedLT.induction with
    | ind k ih => exact fun reads hkeys => hstep _ reads hkeys fun k' hk' => ih k' (hk' k rfl)
  exact hstep after reads hkeys fun k _ => hsome k

end Traversal

end

end Keyset
