import TakaFlow.Lib.Keyset

/-!
# Reading a changing table to its end

Pages are read one after the other, each from what the table holds by then, until one is not full.
Rows may be added between two reads and are never removed.
-/

namespace Keyset

variable {α κ : Type} [LinearOrder κ] {key : α → κ} {limit : ℕ} {after : Option κ} {rows : List α}
  {reads : ℕ → List α} {pages : List (List α)}

variable (key) in
/-- The pages below a key that are read from these states, up to the first one that is not full. -/
inductive Drain (limit : ℕ) : Option κ → (ℕ → List α) → List (List α) → Prop where
  | last {after : Option κ} {reads : ℕ → List α}
      (short : (page key limit after (reads 0)).length < limit) :
      Drain limit after reads [page key limit after (reads 0)]
  | more {after : Option κ} {reads : ℕ → List α} {pages : List (List α)} {b : α}
      (full : (page key limit after (reads 0)).length = limit)
      (lowest : (page key limit after (reads 0)).getLast? = some b)
      (rest : Drain limit (some (key b)) (fun n => reads (n + 1)) pages) :
      Drain limit after reads (page key limit after (reads 0) :: pages)

/-- Below a key, if there is one. -/
abbrev Below (after : Option κ) (k : κ) : Prop := ∀ k' ∈ after, k < k'

/-! ### Pages -/

lemma length_page_le : (page key limit after rows).length ≤ limit := List.length_take_le _ _

lemma mem_of_page {a : α} (h : a ∈ page key limit after rows) : a ∈ rows ∧ Below after (key a) :=
  mem_below.mp (List.mem_of_mem_take h)

lemma descending_page (h : (rows.map key).Nodup) : Descending key (page key limit after rows) :=
  (descending_below _ h).sublist (List.take_sublist _ _)

/-- A page that is not full has all rows. -/
lemma mem_page_of_short (h : (page key limit after rows).length < limit) {a : α} (ha : a ∈ rows)
    (hbelow : Below after (key a)) : a ∈ page key limit after rows := by
  have hmem := mem_below.mpr ⟨ha, hbelow⟩
  unfold page at h ⊢
  rw [List.length_take] at h
  rw [List.take_of_length_le (by omega)]
  exact hmem

/-- The rows that are not on a page are below its last row. -/
lemma lowest_spec (h : (rows.map key).Nodup) {b : α}
    (hlowest : (page key limit after rows).getLast? = some b) :
    b ∈ rows ∧ Below after (key b) ∧ (∀ c ∈ page key limit after rows, key b ≤ key c) ∧
      ∀ a ∈ rows, Below after (key a) → a ∈ page key limit after rows ∨ key a < key b := by
  have hdesc := descending_below after h
  have hmem : ∀ a, a ∈ listing key (rows.filter fun a => after.all (key a < ·)) ↔
      a ∈ rows ∧ Below after (key a) := fun _ => mem_below
  unfold page at *
  generalize listing key (rows.filter fun a => after.all (key a < ·)) = l at *
  have hsplit : (l.take limit).dropLast ++ [b] = l.take limit :=
    List.dropLast_append_getLast? b hlowest
  have hl : l = (l.take limit).dropLast ++ b :: l.drop limit := by
    conv_lhs => rw [← List.take_append_drop limit l, ← hsplit]
    simp
  have hb : b ∈ l := List.mem_of_mem_take (List.mem_of_getLast? hlowest)
  generalize (l.take limit).dropLast = before at *
  generalize l.drop limit = rest at *
  rw [hl, Descending, List.pairwise_append, List.pairwise_cons] at hdesc
  obtain ⟨-, ⟨hrest, -⟩, hbefore⟩ := hdesc
  rw [← hsplit]
  refine ⟨((hmem b).mp hb).1, ((hmem b).mp hb).2, fun c hc => ?_, fun a ha hbelow => ?_⟩
  · obtain hc | hc := List.mem_append.mp hc
    · exact (hbefore c hc b List.mem_cons_self).le
    · rw [List.mem_singleton.mp hc]
  · have ha' := (hmem a).mpr ⟨ha, hbelow⟩
    rw [hl] at ha'
    obtain ha' | ha' := List.mem_append.mp ha'
    · exact .inl (List.mem_append_left _ ha')
    · obtain rfl | ha' := List.mem_cons.mp ha'
      · exact .inl (by simp)
      · exact .inr (hrest a ha')

/-! ### Drains -/

namespace Drain

/-- The pages are listed in strictly descending order, below the key they start from. -/
lemma descending (h : Drain key limit after reads pages)
    (hkeys : ∀ n, ((reads n).map key).Nodup) :
    Descending key pages.flatten ∧ ∀ a ∈ pages.flatten, Below after (key a) := by
  induction h with
  | last short =>
    rw [List.flatten_singleton]
    exact ⟨descending_page (hkeys 0), fun a ha => (mem_of_page ha).2⟩
  | @more after reads pages b full lowest rest ih =>
    obtain ⟨hdesc, hbelow⟩ := ih fun n => hkeys (n + 1)
    obtain ⟨-, hb, hle, -⟩ := lowest_spec (hkeys 0) lowest
    rw [List.flatten_cons]
    refine ⟨List.pairwise_append.mpr ⟨descending_page (hkeys 0), hdesc, fun c hc a ha => ?_⟩,
      fun a ha k hk => ?_⟩
    · exact (hbelow a ha (key b) rfl).trans_le (hle c hc)
    · obtain ha | ha := List.mem_append.mp ha
      · exact (mem_of_page ha).2 k hk
      · exact (hbelow a ha (key b) rfl).trans (hb k hk)

/-- What is on a page was there at some read. -/
lemma mem (h : Drain key limit after reads pages) {a : α} (ha : a ∈ pages.flatten) :
    ∃ n, a ∈ reads n := by
  induction h with
  | last short =>
    rw [List.flatten_singleton] at ha
    exact ⟨0, (mem_of_page ha).1⟩
  | more full lowest rest ih =>
    rw [List.flatten_cons] at ha
    obtain ha | ha := List.mem_append.mp ha
    · exact ⟨0, (mem_of_page ha).1⟩
    · obtain ⟨n, hn⟩ := ih ha
      exact ⟨n + 1, hn⟩

/-- A key that is there at every read is on one of the pages. -/
lemma complete (h : Drain key limit after reads pages) (hkeys : ∀ n, ((reads n).map key).Nodup)
    {k : κ} (hthere : ∀ n, k ∈ (reads n).map key) (hbelow : Below after k) :
    k ∈ pages.flatten.map key := by
  induction h with
  | last short =>
    obtain ⟨a, ha, rfl⟩ := List.mem_map.mp (hthere 0)
    rw [List.flatten_singleton]
    exact List.mem_map_of_mem (mem_page_of_short short ha hbelow)
  | @more after reads pages b full lowest rest ih =>
    obtain ⟨a, ha, rfl⟩ := List.mem_map.mp (hthere 0)
    obtain ⟨-, -, -, hleft⟩ := lowest_spec (hkeys 0) lowest
    rw [List.flatten_cons, List.map_append]
    obtain hpage | hlt := hleft a ha hbelow
    · exact List.mem_append_left _ (List.mem_map_of_mem hpage)
    · refine List.mem_append_right _ (ih (fun n => hkeys (n + 1)) (fun n => hthere (n + 1)) ?_)
      rintro k' ⟨rfl⟩
      exact hlt

/-- Reading comes to an end, whatever is added meanwhile. -/
lemma terminates [WellFoundedLT κ] (hlimit : 0 < limit) (after : Option κ) (reads : ℕ → List α)
    (hkeys : ∀ n, ((reads n).map key).Nodup) : ∃ pages, Drain key limit after reads pages := by
  have hstep : ∀ (after : Option κ) (reads : ℕ → List α), (∀ n, ((reads n).map key).Nodup) →
      (∀ k, Below after k → ∀ reads : ℕ → List α, (∀ n, ((reads n).map key).Nodup) →
        ∃ pages, Drain key limit (some k) reads pages) →
      ∃ pages, Drain key limit after reads pages := by
    intro after reads hkeys ih
    have hlength : (page key limit after (reads 0)).length ≤ limit := length_page_le
    obtain hshort | hfull := hlength.lt_or_eq
    · exact ⟨_, .last hshort⟩
    · cases hlast : (page key limit after (reads 0)).getLast? with
      | none =>
        rw [List.getLast?_eq_none_iff] at hlast
        rw [hlast] at hfull
        exact absurd hfull hlimit.ne
      | some b =>
        obtain ⟨-, hb, -⟩ := lowest_spec (hkeys 0) hlast
        obtain ⟨pages, h⟩ := ih (key b) hb (fun n => reads (n + 1)) fun n => hkeys (n + 1)
        exact ⟨_, .more hfull hlast h⟩
  have hsome : ∀ (k : κ) (reads : ℕ → List α), (∀ n, ((reads n).map key).Nodup) →
      ∃ pages, Drain key limit (some k) reads pages := by
    intro k
    induction k using WellFoundedLT.induction with
    | ind k ih => exact fun reads hkeys => hstep _ reads hkeys fun k' hk' => ih k' (hk' k rfl)
  exact hstep after reads hkeys fun k _ => hsome k

/-! ### What was there at first -/

/-- A descending list of keys is determined by its members. -/
lemma keys_ext {l l' : List κ} (hl : l.Pairwise (· > ·)) (hl' : l'.Pairwise (· > ·))
    (h : ∀ k, k ∈ l ↔ k ∈ l') : l = l' := by
  have hnodup : ∀ {l : List κ}, l.Pairwise (· > ·) → l.Nodup := fun hl => hl.imp ne_of_gt
  exact ((List.perm_ext_iff_of_nodup (hnodup hl) (hnodup hl')).mpr h).eq_of_pairwise
    (fun a b _ _ hab hba => absurd hab hba.not_gt) hl hl'

/-- A page of what was there at first, when nothing has been added below the key. -/
lemma map_page {keys : List κ} (hkeys : ((reads 0).map key).Nodup) (hsorted : keys.Pairwise (· > ·))
    (hthere : ∀ k ∈ keys, Below after k ∧ k ∈ (reads 0).map key)
    (hold : ∀ a ∈ reads 0, Below after (key a) → key a ∈ keys) :
    (page key limit after (reads 0)).map key = keys.take limit := by
  rw [page, List.map_take]
  congr 1
  refine keys_ext (List.pairwise_map.mpr (descending_below after hkeys)) hsorted fun k => ?_
  constructor
  · intro hk
    obtain ⟨a, ha, rfl⟩ := List.mem_map.mp hk
    obtain ⟨ha, hbelow⟩ := mem_below.mp ha
    exact hold a ha hbelow
  · intro hk
    obtain ⟨hbelow, hk⟩ := hthere k hk
    obtain ⟨a, ha, rfl⟩ := List.mem_map.mp hk
    exact List.mem_map_of_mem (mem_below.mpr ⟨ha, hbelow⟩)

/-- The keys that were there at first are what is read iff, at each of the reads that they take,
every key that has been added is above all that they have yet to bring. -/
theorem exact_iff (h : Drain key limit after reads pages) (hlimit : 0 < limit)
    (hkeys : ∀ n, ((reads n).map key).Nodup)
    (hgrow : ∀ n, ∀ a ∈ reads n, key a ∈ (reads (n + 1)).map key) {keys : List κ}
    (hsorted : keys.Pairwise (· > ·)) (hbelow : ∀ k ∈ keys, Below after k)
    (hthere : ∀ n, ∀ k ∈ keys, k ∈ (reads n).map key) :
    pages.flatten.map key = keys ↔
      ∀ i ≤ keys.length / limit, ∀ a ∈ reads i, Below after (key a) → key a ∉ keys →
        keys.countP (key a < ·) < limit * i := by
  have hstay : ∀ {reads : ℕ → List α}, (∀ n, ∀ a ∈ reads n, key a ∈ (reads (n + 1)).map key) →
      ∀ {a : α}, a ∈ reads 0 → ∀ n, key a ∈ (reads n).map key := by
    intro reads hgrow a ha n
    induction n with
    | zero => exact List.mem_map_of_mem ha
    | succ n ih =>
      obtain ⟨b, hb, hba⟩ := List.mem_map.mp ih
      exact hba ▸ hgrow n b hb
  induction h generalizing keys with
  | @last after reads short =>
    rw [List.flatten_singleton]
    constructor
    · rintro hexact i hi a ha habove hnew
      have hlength : keys.length < limit := by rwa [← hexact, List.length_map]
      rw [Nat.div_eq_of_lt hlength, Nat.le_zero] at hi
      subst hi
      exact absurd (hexact ▸ List.mem_map_of_mem (mem_page_of_short short ha habove)) hnew
    · intro hcond
      have hold : ∀ a ∈ reads 0, Below after (key a) → key a ∈ keys := by
        intro a ha habove
        by_contra hnew
        exact absurd (hcond 0 (Nat.zero_le _) a ha habove hnew) (Nat.not_lt_zero _)
      have hpage : (page key limit after (reads 0)).map key = keys.take limit :=
        map_page (hkeys 0) hsorted (fun k hk => ⟨hbelow k hk, hthere 0 k hk⟩) hold
      rw [hpage, List.take_of_length_le]
      have hlength := congrArg List.length hpage
      rw [List.length_map, List.length_take] at hlength
      omega
  | @more after reads pages b full lowest rest ih =>
    by_cases hnew : ∃ a ∈ reads 0, Below after (key a) ∧ key a ∉ keys
    · obtain ⟨a, ha, habove, hnew⟩ := hnew
      refine iff_of_false (fun hexact => hnew ?_) fun hcond => ?_
      · rw [← hexact]
        exact (Drain.more full lowest rest).complete hkeys (hstay hgrow ha) habove
      · exact absurd (hcond 0 (Nat.zero_le _) a ha habove hnew) (Nat.not_lt_zero _)
    · have hold : ∀ a ∈ reads 0, Below after (key a) → key a ∈ keys := by
        intro a ha habove
        by_contra hnot
        exact hnew ⟨a, ha, habove, hnot⟩
      have hpage : (page key limit after (reads 0)).map key = keys.take limit :=
        map_page (hkeys 0) hsorted (fun k hk => ⟨hbelow k hk, hthere 0 k hk⟩) hold
      obtain ⟨-, hbbelow, hle, -⟩ := lowest_spec (hkeys 0) lowest
      have hlength : (keys.take limit).length = limit := by rw [← hpage, List.length_map, full]
      have hlowest : key b ∈ keys.take limit :=
        hpage ▸ List.mem_map_of_mem (List.mem_of_getLast? lowest)
      have hfirst : ∀ k ∈ keys.take limit, key b ≤ k := by
        intro k hk
        rw [← hpage] at hk
        obtain ⟨c, hc, rfl⟩ := List.mem_map.mp hk
        exact hle c hc
      have hparts : (keys.take limit ++ keys.drop limit).Pairwise (· > ·) :=
        (List.take_append_drop limit keys).symm ▸ hsorted
      have hlater : ∀ k ∈ keys.drop limit, k < key b :=
        fun k hk => (List.pairwise_append.mp hparts).2.2 (key b) hlowest k hk
      have hmem : ∀ k, k ∈ keys ↔ k ∈ keys.take limit ∨ k ∈ keys.drop limit := fun k => by
        rw [← List.mem_append, List.take_append_drop]
      have hcount : ∀ p : κ → Bool,
          keys.countP p = (keys.take limit).countP p + (keys.drop limit).countP p := fun p => by
        rw [← List.countP_append, List.take_append_drop]
      have hlen : (keys.drop limit).length / limit + 1 = keys.length / limit := by
        rw [List.length_take] at hlength
        rw [List.length_drop, ← Nat.div_eq_sub_div hlimit (by omega)]
      have hih := ih (fun n => hkeys (n + 1)) (fun n => hgrow (n + 1)) hsorted.drop
        (fun k hk => by rintro k' ⟨rfl⟩; exact hlater k hk)
        (fun n k hk => hthere (n + 1) k (List.mem_of_mem_drop hk))
      have hrest : ((page key limit after (reads 0) :: pages).flatten.map key = keys ↔
          pages.flatten.map key = keys.drop limit) := by
        rw [List.flatten_cons, List.map_append, hpage]
        constructor
        · intro heq
          exact List.append_cancel_left (heq.trans (List.take_append_drop limit keys).symm)
        · intro heq
          rw [heq, List.take_append_drop]
      refine hrest.trans (hih.trans ?_)
      constructor
      · intro hcond i hi a ha habove hnew
        cases i with
        | zero => exact absurd (hold a ha habove) hnew
        | succ i =>
          rw [hcount]
          have hne : key a ≠ key b := fun heq => hnew ((hmem _).mpr (.inl (heq ▸ hlowest)))
          obtain hlt | hlt := hne.lt_or_gt
          · have hdrop := hcond i (by omega) a ha (by rintro k ⟨rfl⟩; exact hlt)
              fun hmem' => hnew ((hmem _).mpr (.inr hmem'))
            have htake := (keys.take limit).countP_le_length (p := (key a < ·))
            rw [hlength] at htake
            rw [Nat.mul_succ]
            omega
          · have hdrop : (keys.drop limit).countP (key a < ·) = 0 := by
              rw [List.countP_eq_zero]
              intro k hk
              simpa using ((hlater k hk).trans hlt).le
            have htake : (keys.take limit).countP (key a < ·) < limit := by
              have hle' : (keys.take limit).countP (key a < ·) ≤ (keys.take limit).length :=
                List.countP_le_length
              refine lt_of_le_of_ne (hle'.trans hlength.le) fun heq => ?_
              have hall := List.countP_eq_length.mp (heq.trans hlength.symm) (key b) hlowest
              exact absurd (of_decide_eq_true hall) hlt.not_gt
            rw [Nat.mul_succ]
            omega
      · intro hcond i hi a ha habove hnew
        have hlt : key a < key b := habove (key b) rfl
        have hall := hcond (i + 1) (by omega) a ha (fun k hk => hlt.trans (hbbelow k hk))
          fun hmem' => ((hmem _).mp hmem').elim (fun h => (hfirst _ h).not_gt hlt) hnew
        rw [hcount] at hall
        have htake : (keys.take limit).countP (key a < ·) = limit := by
          refine (List.countP_eq_length.mpr fun k hk => ?_).trans hlength
          exact decide_eq_true (hlt.trans_le (hfirst k hk))
        rw [htake, Nat.mul_succ] at hall
        omega

end Drain

end Keyset
