import Mathlib.Data.List.Flatten
import Mathlib.Data.List.Pairwise
import Mathlib.Order.BoundedOrder.Basic
import NestGateway.Core.StableSort

/-! # Paging through several servers with a bare key as the cursor

Several servers each list their entries; an entry carries a key, and the bottom
key marks an entry that has none (it is *undated*). A page asks every server
for the first `L` entries that it reaches at the cursor, sorts what they return
and cuts it at `L`; the key of its last entry is the cursor of the next request.
A server reaches an entry at no cursor from its key on, unless the entry is
undated, and what is out of its reach at one cursor stays so at later ones.

The main result characterises, from what the servers reach, when the pages
together return every entry exactly once.
-/

namespace NestGateway.CursorPaging

open List StableSort

variable {E κ : Type*} [LinearOrder κ] [OrderBot κ]

/-- A server: its entries in listing order, those that a request at a cursor can come to, and
whether it announces more than it returned. -/
structure Server (E κ : Type*) where
  entries : List E
  reach : κ → List E
  more : κ → Bool

variable (key : E → κ) (r : E → E → Prop) [DecidableRel r] (L : Nat)
variable (servers : List (Server E κ))

/-- All entries, in listing order. -/
def listed : List E := servers.flatMap (·.entries)

/-- The entries that a request at cursor `c` can come to. -/
def outstanding (c : κ) : List E := servers.flatMap (·.reach c)

/-- What the servers answer, each with at most `L` entries. -/
def gathered (c : κ) : List E := servers.flatMap fun s => (s.reach c).take L

def page (c : κ) : List E := (insertionSort r (gathered L servers c)).take L

def hasMore (c : κ) : Bool :=
  servers.any (·.more c) || decide (L < (gathered L servers c).length)

/-- The next request, made only while there is more and the page ends in a dated entry. -/
def nextCursor (c : κ) : Option κ :=
  if hasMore L servers c then
    ((page r L servers c).getLast?.map key).filter (⊥ < ·)
  else none

/-- The pages fetched from a cursor on, with at most `fuel` requests. -/
def pages : Nat → κ → List (List E)
  | 0, _ => []
  | fuel + 1, c =>
      page r L servers c ::
        match nextCursor key r L servers c with
        | none => []
        | some c' => pages fuel c'

/-- The finite sequences of requests that end because no further one is made. -/
inductive Paging : κ → List (List E) → Prop
  | last {c : κ} (h : nextCursor key r L servers c = none) : Paging c [page r L servers c]
  | more {c c' : κ} {ps : List (List E)} (h : nextCursor key r L servers c = some c')
      (rest : Paging c' ps) : Paging c (page r L servers c :: ps)

/-- What the servers guarantee: no entry is listed twice; a request comes to listed entries, dated
ones above its cursor only, and to no others at a later cursor; a server announces more whenever
it cut its answer, and announces more only with a full answer. -/
structure Lawful : Prop where
  nodup : (listed servers).Nodup
  sublist : ∀ s ∈ servers, ∀ c, s.reach c <+ s.entries
  kept : ∀ s ∈ servers, ∀ c, ∀ e ∈ s.reach c, key e = ⊥ ∨ c < key e
  antitone : ∀ s ∈ servers, ∀ c c', c ≤ c' → s.reach c' <+ s.reach c
  more_of_cut : ∀ s ∈ servers, ∀ c, L < (s.reach c).length → s.more c = true
  full_of_more : ∀ s ∈ servers, ∀ c, s.more c = true → L ≤ (s.reach c).length

section Condition

variable [DecidableEq E]

/-- The order of a page: entries that tie stay in listing order. -/
abbrev InFront (a b : E) : Prop := Before r (fun e => (listed servers).idxOf e) a b

/-- The entries that are in reach at `c` and no longer at `c'`. -/
def leaving (c c' : κ) : List E :=
  (outstanding servers c).filter fun e => decide (e ∉ outstanding servers c')

/-- As many entries as a page holds leave the reach between `c` and `c'`. They are among the first
`L` of their servers and in front of the others there, and the last of them has key `c'`. -/
structure FullPage (c c' : κ) : Prop where
  later : c < c'
  size : (leaving servers c c').length = L
  first : leaving servers c c' ⊆ gathered L servers c
  front : ∀ e ∈ leaving servers c c', ∀ d ∈ gathered L servers c, d ∉ leaving servers c c' →
    InFront r servers e d
  last : ∃ e ∈ leaving servers c c', key e = c' ∧
    ∀ d ∈ leaving servers c c', d ≠ e → InFront r servers d e

/-- What is in reach fits in one page that no other follows: no server announces more, or the last
entry is undated. -/
structure LastPage (c : κ) : Prop where
  fits : (outstanding servers c).length ≤ L
  stops : (∀ s ∈ servers, s.more c = false) ∨
    ∃ e ∈ outstanding servers c, key e = ⊥ ∧
      ∀ d ∈ outstanding servers c, d ≠ e → InFront r servers d e

/-- The entries in reach at a cursor leave it page by page. -/
inductive Separated : κ → Prop
  | last {c : κ} (h : LastPage key r L servers c) : Separated c
  | more {c c' : κ} (h : FullPage key r L servers c c') (rest : Separated c') : Separated c

end Condition

section Windows

variable {α : Type*} {l l' : List α} {n : Nat}

theorem mem_take_of_sublist {x : α} (h : l' <+ l) (nodup : l.Nodup) (hx : x ∈ l')
    (htake : x ∈ l.take n) : x ∈ l'.take n := by
  induction h generalizing n with
  | slnil => cases hx
  | @cons l' l a h ih =>
      obtain ⟨ha, hl⟩ := nodup_cons.mp nodup
      cases n with
      | zero => cases htake
      | succ n =>
          rw [take_succ_cons, mem_cons] at htake
          have hmem := htake.resolve_left fun heq => ha (heq ▸ h.subset hx)
          exact (take_subset_take_left l' (Nat.le_succ n)) (ih hl hx hmem)
  | @cons_cons l' l a h ih =>
      obtain ⟨ha, hl⟩ := nodup_cons.mp nodup
      cases n with
      | zero => cases htake
      | succ n =>
          rw [take_succ_cons, mem_cons] at htake ⊢
          refine htake.imp id fun hmem => ?_
          have hne : x ≠ a := fun heq => ha (heq ▸ mem_of_mem_take hmem)
          exact ih hl ((mem_cons.mp hx).resolve_left hne) hmem

theorem length_fresh_le [DecidableEq α] (h : l' <+ l) (nodup : l.Nodup) :
    ((l'.take n).filter fun x => decide (x ∉ l.take n)).length ≤
      ((l.take n).filter fun x => decide (x ∉ l')).length := by
  have hnodup := nodup.sublist (take_sublist n l)
  have hstay : (l.take n).filter (fun x => decide (x ∈ l')) ⊆
      (l'.take n).filter fun x => decide (x ∈ l.take n) := by
    intro x hx
    obtain ⟨htake, hmem⟩ := mem_filter.mp hx
    have hmem := of_decide_eq_true hmem
    exact mem_filter.mpr ⟨mem_take_of_sublist h nodup hmem htake, decide_eq_true htake⟩
  have hle := (subperm_of_subset (hnodup.filter _) hstay).length_le
  have hwindow := length_eq_length_filter_add (l := l.take n) fun x => decide (x ∈ l')
  have hwindow' := length_eq_length_filter_add (l := l'.take n) fun x => decide (x ∈ l.take n)
  simp only [decide_not] at hle ⊢
  rw [length_take] at hwindow hwindow'
  have := h.length_le
  omega

theorem length_flatMap_le {β : Type*} {l : List β} {f g : β → List α}
    (h : ∀ b ∈ l, (f b).length ≤ (g b).length) : (l.flatMap f).length ≤ (l.flatMap g).length := by
  induction l with
  | nil => exact Nat.le_refl _
  | cons b l ih =>
      obtain ⟨hb, hl⟩ := forall_mem_cons.mp h
      rw [flatMap_cons, flatMap_cons, length_append, length_append]
      exact Nat.add_le_add hb (ih hl)

end Windows

/-! ## What one page holds -/

section Lawful

variable {key r L servers} (lawful : Lawful key L servers)

include lawful

theorem outstanding_antitone {c c' : κ} (h : c ≤ c') :
    outstanding servers c' <+ outstanding servers c :=
  Sublist.flatMap_right servers fun s hs => lawful.antitone s hs c c' h

theorem outstanding_sublist (c : κ) : outstanding servers c <+ listed servers :=
  Sublist.flatMap_right servers fun s hs => lawful.sublist s hs c

theorem outstanding_nodup (c : κ) : (outstanding servers c).Nodup :=
  lawful.nodup.sublist (outstanding_sublist lawful c)

theorem reach_nodup {s : Server E κ} (hs : s ∈ servers) (c : κ) : (s.reach c).Nodup :=
  (nodup_flatMap.mp (outstanding_nodup lawful c)).1 s hs

omit [LinearOrder κ] [OrderBot κ] lawful in
theorem gathered_sublist (c : κ) : gathered L servers c <+ outstanding servers c :=
  Sublist.flatMap_right servers fun _ _ => take_sublist L _

theorem gathered_nodup (c : κ) : (gathered L servers c).Nodup :=
  (outstanding_nodup lawful c).sublist (gathered_sublist c)

omit [LinearOrder κ] [OrderBot κ] lawful in
theorem mem_gathered_of_page {c : κ} {e : E} (h : e ∈ page r L servers c) :
    e ∈ gathered L servers c := (mem_insertionSort r).mp (mem_of_mem_take h)

omit [LinearOrder κ] [OrderBot κ] lawful in
theorem page_subset {c : κ} : page r L servers c ⊆ outstanding servers c :=
  fun _ h => (gathered_sublist c).subset (mem_gathered_of_page h)

theorem page_nodup (c : κ) : (page r L servers c).Nodup :=
  (((perm_insertionSort r _).nodup_iff).mpr (gathered_nodup lawful c)).sublist (take_sublist L _)

theorem mem_reach_of_mem {s : Server E κ} (hs : s ∈ servers) {c c' : κ} {e : E}
    (h : e ∈ s.reach c) (h' : e ∈ outstanding servers c') : e ∈ s.reach c' := by
  obtain ⟨t, ht, hmem⟩ := mem_flatMap.mp h'
  rcases eq_or_ne s t with rfl | hne
  · exact hmem
  · have : Std.Symm (Function.onFun Disjoint fun s : Server E κ => s.entries) :=
      ⟨fun _ _ h _ ha hb => h hb ha⟩
    have hapart := (nodup_flatMap.mp lawful.nodup).2.forall hs ht hne
    exact (hapart ((lawful.sublist s hs c).subset h) ((lawful.sublist t ht c').subset hmem)).elim

theorem gathered_eq_of_not_hasMore {c : κ} (h : hasMore L servers c = false) :
    gathered L servers c = outstanding servers c := by
  simp only [hasMore, Bool.or_eq_false_iff, any_eq_false] at h
  refine flatMap_congr fun s hs => take_of_length_le ?_
  by_contra hlong
  exact h.1 s hs (lawful.more_of_cut s hs c (not_le.mp hlong))

theorem page_perm_of_not_hasMore {c : κ} (h : hasMore L servers c = false) :
    (page r L servers c).Perm (outstanding servers c) := by
  have hg := gathered_eq_of_not_hasMore lawful h
  simp only [hasMore, Bool.or_eq_false_iff, decide_eq_false_iff_not] at h
  rw [page, take_of_length_le (by rw [length_insertionSort]; omega), hg]
  exact perm_insertionSort _ _

omit [LinearOrder κ] [OrderBot κ] lawful in
theorem page_perm_of_fits {c : κ} (fits : (outstanding servers c).length ≤ L) :
    gathered L servers c = outstanding servers c ∧
      (page r L servers c).Perm (outstanding servers c) := by
  have hg : gathered L servers c = outstanding servers c := by
    refine flatMap_congr fun s hs => take_of_length_le ?_
    have hsub : s.reach c <+ outstanding servers c := sublist_flatten_of_mem (mem_map_of_mem hs)
    exact le_trans hsub.length_le fits
  refine ⟨hg, ?_⟩
  rw [page, hg, take_of_length_le (by rw [length_insertionSort]; exact fits)]
  exact perm_insertionSort _ _

/-- A request that announces more returns a full page. -/
theorem length_page_of_hasMore {c : κ} (h : hasMore L servers c = true) :
    (page r L servers c).length = L := by
  have hfull : L ≤ (gathered L servers c).length := by
    simp only [hasMore, Bool.or_eq_true, any_eq_true, decide_eq_true_eq] at h
    rcases h with ⟨s, hs, hmore⟩ | hlen
    · have hs' : L ≤ ((s.reach c).take L).length := by
        rw [length_take]
        exact le_min le_rfl (lawful.full_of_more s hs c hmore)
      have hsub : ((s.reach c).take L) <+ gathered L servers c :=
        sublist_flatten_of_mem (mem_map_of_mem hs)
      exact le_trans hs' hsub.length_le
    · omega
  rw [page, length_take, length_insertionSort]
  omega

/-! ## The cursor of the next request -/

omit lawful in
theorem nextCursor_some {c c' : κ} (h : nextCursor key r L servers c = some c') :
    hasMore L servers c = true ∧ ⊥ < c' ∧
      ∃ e, (page r L servers c).getLast? = some e ∧ key e = c' := by
  unfold nextCursor at h
  split at h
  case isFalse => cases h
  case isTrue hm =>
    obtain ⟨hmap, hbot⟩ := Option.filter_eq_some_iff.mp h
    obtain ⟨e, he, hk⟩ := Option.map_eq_some_iff.mp hmap
    exact ⟨hm, by simpa using hbot, e, he, hk⟩

omit lawful in
theorem nextCursor_none {c : κ} (h : nextCursor key r L servers c = none) :
    hasMore L servers c = false ∨ page r L servers c = [] ∨
      ∃ e, (page r L servers c).getLast? = some e ∧ key e = ⊥ := by
  unfold nextCursor at h
  split at h
  case isFalse hm => exact Or.inl (by simpa using hm)
  case isTrue =>
    cases hl : (page r L servers c).getLast? with
    | none => exact Or.inr (Or.inl (by simpa using hl))
    | some last =>
        refine Or.inr (Or.inr ⟨last, rfl, ?_⟩)
        simpa [hl, Option.filter_eq_none_iff] using h

omit lawful in
theorem nextCursor_of_dated {c : κ} {e : E} (hm : hasMore L servers c = true)
    (hl : (page r L servers c).getLast? = some e) (hbot : ⊥ < key e) :
    nextCursor key r L servers c = some (key e) := by
  rw [nextCursor, if_pos hm, hl, Option.map_some, Option.filter_some, if_pos (decide_eq_true hbot)]

/-- The cursor moves strictly up, to the key of an entry above the old cursor. -/
theorem nextCursor_progress {c c' : κ} (h : nextCursor key r L servers c = some c') :
    c < c' ∧ ∃ e ∈ listed servers, key e = c' := by
  obtain ⟨_, hbot, last, hl, hk⟩ := nextCursor_some h
  have hmem := page_subset (mem_of_getLast? hl)
  obtain ⟨s, hs, hreach⟩ := mem_flatMap.mp hmem
  have hlt := (lawful.kept s hs c last hreach).resolve_left (hk ▸ ne_of_gt hbot)
  exact ⟨hk ▸ hlt, last, (outstanding_sublist lawful c).subset hmem, hk⟩

theorem length_above_lt {c c' : κ} (h : nextCursor key r L servers c = some c') :
    ((listed servers).filter (c' < key ·)).length <
      ((listed servers).filter (c < key ·)).length := by
  obtain ⟨hlt, e, he, hk⟩ := nextCursor_progress lawful h
  have hkeep : (listed servers).filter (c' < key ·) =
      ((listed servers).filter (c < key ·)).filter (c' < key ·) := by
    rw [filter_filter]
    refine filter_congr fun d _ => ?_
    by_cases hd : c' < key d
    · simp [hd, hlt.trans hd]
    · simp [hd]
  rw [hkeep]
  apply length_filter_lt_length_iff_exists.mpr
  exact ⟨e, mem_filter.mpr ⟨he, decide_eq_true (hk ▸ hlt)⟩, by simp [hk]⟩

/-- With one request for every entry above the cursor and one more, paging comes to its end. -/
theorem pages_paging {fuel : Nat} {c : κ}
    (hfuel : ((listed servers).filter (c < key ·)).length < fuel) :
    Paging key r L servers c (pages key r L servers fuel c) := by
  induction fuel generalizing c with
  | zero => omega
  | succ fuel ih =>
      cases h : nextCursor key r L servers c with
      | none =>
          simp only [pages, h]
          exact Paging.last h
      | some c' =>
          have hlt := length_above_lt lawful h
          simp only [pages, h]
          exact Paging.more h (ih (by omega))

theorem Paging.subset {c : κ} {ps : List (List E)} (hp : Paging key r L servers c ps) :
    ps.flatten ⊆ outstanding servers c := by
  induction hp with
  | last =>
      rw [flatten_cons, flatten_nil, append_nil]
      exact page_subset
  | @more c c' ps h rest ih =>
      have hanti := outstanding_antitone lawful (nextCursor_progress lawful h).1.le
      rw [flatten_cons]
      exact append_subset.mpr ⟨page_subset, fun e he => hanti.subset (ih he)⟩

omit lawful in
theorem Paging.head {c : κ} {ps : List (List E)} (hp : Paging key r L servers c ps) :
    page r L servers c ⊆ ps.flatten := by
  cases hp <;> exact fun e he => mem_append_left _ he

/-! ## When every entry is on one page -/

variable [DecidableEq E]

theorem leaving_append_perm {c c' : κ} (h : c ≤ c') :
    (leaving servers c c' ++ outstanding servers c').Perm (outstanding servers c) := by
  have hnodup := outstanding_nodup lawful c
  have hapart : (leaving servers c c' ++ outstanding servers c').Nodup := by
    refine nodup_append'.mpr ⟨hnodup.filter _, outstanding_nodup lawful c', fun e he he' => ?_⟩
    exact of_decide_eq_true (mem_filter.mp he).2 he'
  refine (perm_ext_iff_of_nodup hapart hnodup).mpr fun e => ?_
  rw [mem_append, leaving, mem_filter, decide_eq_true_eq]
  constructor
  · rintro (⟨hmem, _⟩ | hmem)
    · exact hmem
    · exact (outstanding_antitone lawful h).subset hmem
  · intro hmem
    by_cases hstay : e ∈ outstanding servers c'
    · exact Or.inr hstay
    · exact Or.inl ⟨hmem, hstay⟩

variable (trans : ∀ a b c, r a b → r b c → r a c) (total : ∀ a b, r a b ∨ r b a)

include trans total

omit [OrderBot κ] lawful [LinearOrder κ] in
theorem sorted_inFront {l : List E} (h : l <+ listed servers) (nodup : (listed servers).Nodup) :
    (insertionSort r l).Pairwise (InFront r servers) := by
  refine pairwise_before trans total (Pairwise.sublist h ?_)
  refine pairwise_iff_getElem.mpr fun i j hi hj hij => ?_
  rwa [nodup.idxOf_getElem, nodup.idxOf_getElem]

theorem gathered_inFront (c : κ) :
    (insertionSort r (gathered L servers c)).Pairwise (InFront r servers) :=
  sorted_inFront trans total ((gathered_sublist c).trans (outstanding_sublist lawful c))
    lawful.nodup

theorem inFront_of_page {c : κ} {e d : E} (he : e ∈ page r L servers c)
    (hd : d ∈ gathered L servers c) (hout : d ∉ page r L servers c) : InFront r servers e d := by
  have hsorted := gathered_inFront lawful trans total c
  have hmem : d ∈ insertionSort r (gathered L servers c) := (mem_insertionSort r).mpr hd
  rw [← take_append_drop L (insertionSort r (gathered L servers c))] at hsorted hmem
  exact (pairwise_append.mp hsorted).2.2 e he d ((mem_append.mp hmem).resolve_left hout)

theorem inFront_last {c : κ} {e d : E} (hl : (page r L servers c).getLast? = some e)
    (hd : d ∈ page r L servers c) (hne : d ≠ e) : InFront r servers d e := by
  have hsorted : (page r L servers c).Pairwise (InFront r servers) :=
    (gathered_inFront lawful trans total c).sublist (take_sublist L _)
  obtain ⟨front, hfront⟩ := getLast?_eq_some_iff.mp hl
  rw [hfront] at hsorted hd
  have hmem := (mem_append.mp hd).resolve_right fun h => hne (mem_singleton.mp h)
  exact (pairwise_append.mp hsorted).2.2 d hmem e (mem_singleton_self e)

theorem getLast?_page {c : κ} {e : E} (he : e ∈ page r L servers c)
    (hlast : ∀ d ∈ page r L servers c, d ≠ e → InFront r servers d e) :
    (page r L servers c).getLast? = some e :=
  getLast?_of_last Before.asymm
    ((gathered_inFront lawful trans total c).sublist (take_sublist L _)) he hlast

/-- When the pages hold everything in reach once, an entry of the first page does not stay in
reach: it would be gathered again and be left out of the second page by as many entries that were
not gathered before, more than the first page made room for. -/
theorem not_outstanding_of_page {c c' : κ} {ps : List (List E)}
    (h : nextCursor key r L servers c = some c') (rest : Paging key r L servers c' ps)
    (hall : (page r L servers c ++ ps.flatten).Perm (outstanding servers c)) {x : E}
    (hx : x ∈ page r L servers c) : x ∉ outstanding servers c' := by
  intro hstay
  have hle := (nextCursor_progress lawful h).1.le
  have hdisjoint := disjoint_of_nodup_append (hall.nodup_iff.mpr (outstanding_nodup lawful c))
  obtain ⟨s, hs, htake⟩ := mem_flatMap.mp (mem_gathered_of_page hx)
  have hagain : x ∈ gathered L servers c' :=
    mem_flatMap.mpr ⟨s, hs, mem_take_of_sublist (lawful.antitone s hs c c' hle)
      (reach_nodup lawful hs c) (mem_reach_of_mem lawful hs (mem_of_mem_take htake) hstay) htake⟩
  have hout : x ∉ page r L servers c' := fun hx' => hdisjoint hx (rest.head hx')
  -- what the second page holds was not gathered before
  have hfresh : page r L servers c' ⊆ servers.flatMap fun s =>
      ((s.reach c').take L).filter fun y => decide (y ∉ (s.reach c).take L) := by
    intro y hy
    obtain ⟨t, ht, hmem⟩ := mem_flatMap.mp (mem_gathered_of_page hy)
    refine mem_flatMap.mpr ⟨t, ht, mem_filter.mpr ⟨hmem, decide_eq_true fun hbefore => ?_⟩⟩
    have hyx := inFront_of_page lawful trans total hy hagain hout
    have hxy := inFront_of_page lawful trans total hx (mem_flatMap.mpr ⟨t, ht, hbefore⟩)
      fun hy' => hdisjoint hy' (rest.head hy)
    exact hyx.asymm hxy
  -- what was gathered and leaves the reach is on the first page, beside `x`
  have hgone : (servers.flatMap fun s =>
      ((s.reach c).take L).filter fun y => decide (y ∉ s.reach c')) ⊆
        (page r L servers c).erase x := by
    intro y hy
    obtain ⟨t, ht, hmem⟩ := mem_flatMap.mp hy
    obtain ⟨hmem, hlost⟩ := mem_filter.mp hmem
    have hreach := mem_of_mem_take hmem
    have hgone : y ∉ outstanding servers c' := fun hy' =>
      of_decide_eq_true hlost (mem_reach_of_mem lawful ht hreach hy')
    have hpage : y ∈ page r L servers c :=
      (mem_append.mp (hall.mem_iff.mpr (mem_flatMap.mpr ⟨t, ht, hreach⟩))).resolve_right
        fun hps => hgone (rest.subset lawful hps)
    have hne : y ≠ x := fun heq => hgone (heq ▸ hstay)
    exact (mem_erase_of_ne hne).mpr hpage
  have hsize : (page r L servers c').length = L := by
    rw [page, length_take, length_insertionSort]
    by_contra hfew
    refine hout ?_
    rw [page, take_of_length_le (by rw [length_insertionSort]; omega)]
    exact (mem_insertionSort r).mpr hagain
  have hlost : (servers.flatMap fun s =>
      ((s.reach c).take L).filter fun y => decide (y ∉ s.reach c')).Nodup :=
    (gathered_nodup lawful c).sublist (Sublist.flatMap_right servers fun _ _ => filter_sublist)
  have h₁ := (subperm_of_subset (page_nodup lawful c') hfresh).length_le
  have h₂ := length_flatMap_le fun s (hs : s ∈ servers) =>
    @length_fresh_le _ _ _ L _ (lawful.antitone s hs c c' hle) (reach_nodup lawful hs c)
  have h₃ := (subperm_of_subset hlost hgone).length_le
  have h₄ : (page r L servers c).length ≤ L := length_take_le L _
  have h₅ := length_pos_of_mem hx
  rw [length_erase_of_mem hx] at h₃
  omega

theorem fullPage_of_perm {c c' : κ} {ps : List (List E)}
    (h : nextCursor key r L servers c = some c') (rest : Paging key r L servers c' ps)
    (hall : (page r L servers c ++ ps.flatten).Perm (outstanding servers c)) :
    FullPage key r L servers c c' ∧ ps.flatten.Perm (outstanding servers c') := by
  obtain ⟨hmore, _, last, hl, hkey⟩ := nextCursor_some h
  have hlater := (nextCursor_progress lawful h).1
  have hnodup := hall.nodup_iff.mpr (outstanding_nodup lawful c)
  have hleaves := fun x => not_outstanding_of_page lawful trans total h rest hall (x := x)
  have hrest : ps.flatten.Perm (outstanding servers c') := by
    refine (perm_ext_iff_of_nodup (nodup_append'.mp hnodup).2.1
      (outstanding_nodup lawful c')).mpr fun e => ⟨fun he => rest.subset lawful he, fun he => ?_⟩
    have hmem := hall.mem_iff.mpr ((outstanding_antitone lawful hlater.le).subset he)
    exact (mem_append.mp hmem).resolve_left fun hp => hleaves e hp he
  have hpage : (page r L servers c).Perm (leaving servers c c') := by
    have hboth := hall.trans (leaving_append_perm lawful hlater.le).symm
    exact (perm_append_right_iff (outstanding servers c')).mp
      ((hrest.symm.append_left _).trans hboth)
  have hlast := hpage.mem_iff.mp (mem_of_getLast? hl)
  refine ⟨⟨hlater, ?_, fun e he => mem_gathered_of_page (hpage.mem_iff.mpr he), ?_,
    last, hlast, hkey, ?_⟩, hrest⟩
  · rw [← hpage.length_eq, length_page_of_hasMore lawful hmore]
  · intro e he d hd hout
    exact inFront_of_page lawful trans total (hpage.mem_iff.mpr he) hd
      fun hd' => hout (hpage.mem_iff.mp hd')
  · intro d hd hne
    exact inFront_last lawful trans total hl (hpage.mem_iff.mpr hd) hne

theorem separated_of_perm (hL : 1 ≤ L) {c : κ} {ps : List (List E)}
    (hp : Paging key r L servers c ps) (hall : ps.flatten.Perm (outstanding servers c)) :
    Separated key r L servers c := by
  induction hp with
  | @last c hstop =>
      rw [flatten_cons, flatten_nil, append_nil] at hall
      have hfits : (outstanding servers c).length ≤ L := by
        rw [← hall.length_eq]
        exact length_take_le L _
      refine Separated.last ⟨hfits, ?_⟩
      rcases nextCursor_none hstop with hno | hnil | ⟨e, hl, hbot⟩
      · rw [hasMore, Bool.or_eq_false_iff, any_eq_false] at hno
        exact Or.inl fun s hs => by simpa using hno.1 s hs
      · refine Or.inl fun s hs => ?_
        rw [hnil] at hall
        by_contra hmore
        have hfull := lawful.full_of_more s hs c (by simpa using hmore)
        have hnone := flatMap_eq_nil_iff.mp hall.nil_eq.symm s hs
        rw [hnone, length_nil] at hfull
        omega
      · exact Or.inr ⟨e, hall.mem_iff.mp (mem_of_getLast? hl), hbot, fun d hd hne =>
          inFront_last lawful trans total hl (hall.mem_iff.mpr hd) hne⟩
  | @more c c' ps h rest ih =>
      rw [flatten_cons] at hall
      obtain ⟨hfull, hrest⟩ := fullPage_of_perm lawful trans total h rest hall
      exact Separated.more hfull (ih hrest)

theorem FullPage.page_perm {c c' : κ} (hfull : FullPage key r L servers c c') :
    (page r L servers c).Perm (leaving servers c c') := by
  have hnodup : (leaving servers c c').Nodup := (outstanding_nodup lawful c).filter _
  have htake := take_perm_of_first Before.asymm (gathered_inFront lawful trans total c) hnodup
    (fun e he => (mem_insertionSort r).mpr (hfull.first he))
    fun e he d hd hout => hfull.front e he d ((mem_insertionSort r).mp hd) hout
  rwa [hfull.size] at htake

theorem FullPage.getLast?_page {c c' : κ} (hfull : FullPage key r L servers c c') :
    ∃ e, (page r L servers c).getLast? = some e ∧ key e = c' := by
  have hpage := hfull.page_perm lawful trans total
  obtain ⟨e, he, hkey, hlast⟩ := hfull.last
  exact ⟨e, CursorPaging.getLast?_page lawful trans total (hpage.mem_iff.mpr he)
    fun d hd hne => hlast d (hpage.mem_iff.mp hd) hne, hkey⟩

theorem FullPage.next {c c' d : κ} (hfull : FullPage key r L servers c c')
    (h : nextCursor key r L servers c = some d) : d = c' := by
  obtain ⟨e, hget, hkey⟩ := hfull.getLast?_page lawful trans total
  obtain ⟨_, _, z, hl, hz⟩ := nextCursor_some h
  rw [← hz, ← hkey, Option.some.inj (hl.symm.trans hget)]

theorem FullPage.not_hasMore_of_last {c c' : κ} (hfull : FullPage key r L servers c c')
    (hstop : nextCursor key r L servers c = none) : hasMore L servers c = false := by
  obtain ⟨e, hget, hkey⟩ := hfull.getLast?_page lawful trans total
  by_contra hmore
  have hdated : ⊥ < key e := hkey ▸ lt_of_le_of_lt bot_le hfull.later
  have hnext := nextCursor_of_dated (by simpa using hmore) hget hdated
  rw [hstop] at hnext
  cases hnext

theorem LastPage.stop {c : κ} (hlast : LastPage key r L servers c) :
    nextCursor key r L servers c = none := by
  obtain ⟨hg, hpage⟩ := page_perm_of_fits (r := r) hlast.fits
  rcases hlast.stops with hno | ⟨e, he, hbot, hbehind⟩
  · have hmore : hasMore L servers c = false := by
      rw [hasMore, hg, Bool.or_eq_false_iff, any_eq_false]
      exact ⟨fun s hs => by simp [hno s hs], decide_eq_false (not_lt.mpr hlast.fits)⟩
    rw [nextCursor, if_neg (by simp [hmore])]
  · have hget := getLast?_page lawful trans total (hpage.mem_iff.mpr he)
      fun d hd hne => hbehind d (hpage.mem_iff.mp hd) hne
    rw [nextCursor, hget]
    split
    · rw [Option.map_some, hbot, Option.filter_some, if_neg (by simp)]
    · rfl

theorem perm_of_separated {c : κ} {ps : List (List E)} (hp : Paging key r L servers c ps)
    (hsep : Separated key r L servers c) : ps.flatten.Perm (outstanding servers c) := by
  induction hsep generalizing ps with
  | @last c hlast =>
      have hstop := hlast.stop lawful trans total
      cases hp with
      | last _ =>
          rw [flatten_cons, flatten_nil, append_nil]
          exact (page_perm_of_fits hlast.fits).2
      | more h _ =>
          rw [hstop] at h
          cases h
  | @more c c' hfull _ ih =>
      cases hp with
      | last hstop =>
          rw [flatten_cons, flatten_nil, append_nil]
          exact page_perm_of_not_hasMore lawful
            (hfull.not_hasMore_of_last lawful trans total hstop)
      | more h rest =>
          obtain rfl := hfull.next lawful trans total h
          rw [flatten_cons]
          exact ((hfull.page_perm lawful trans total).append (ih rest)).trans
            (leaving_append_perm lawful hfull.later.le)

/-- With requests enough, the pages hold every entry of every server exactly once if and only if
the first request reaches all of them and they leave the reach page by page. -/
theorem pages_perm_iff (hL : 1 ≤ L) {fuel : Nat}
    (hfuel : ((listed servers).filter (⊥ < key ·)).length < fuel) :
    (pages key r L servers fuel ⊥).flatten.Perm (listed servers) ↔
      outstanding servers ⊥ = listed servers ∧ Separated key r L servers ⊥ := by
  have hp := pages_paging (r := r) lawful hfuel
  constructor
  · intro hall
    have hreached : outstanding servers ⊥ = listed servers := by
      refine (outstanding_sublist lawful ⊥).eq_of_length_le ?_
      exact (subperm_of_subset lawful.nodup fun e he =>
        hp.subset lawful (hall.mem_iff.mpr he)).length_le
    exact ⟨hreached, separated_of_perm lawful trans total hL hp (hreached ▸ hall)⟩
  · rintro ⟨hreached, hsep⟩
    exact hreached ▸ perm_of_separated lawful trans total hp hsep

end Lawful

end NestGateway.CursorPaging
