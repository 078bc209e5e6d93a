import Mathlib.Data.List.Nodup
import NestGateway.Core.Runs

/-! # The tabs of a page

`useTabs` keeps a list of tabs and the id of the active one in two states, and
writes both to the session storage. A page that is loaded again takes them from
there. What a tab carries goes through JSON on the way, which is a parameter;
the ids are texts and come back as they were.
-/

namespace NestGateway.Ui

open Runs

structure Tab (T : Type) where
  id : String
  label : String
  data : T
  deriving Repr, DecidableEq

structure PersistedState (T : Type) where
  tabs : List (Tab T)
  activeTabId : Option String
  deriving Repr, DecidableEq

structure UseTabsOptions (T : Type) where
  maxTabs : Nat
  storageKey : Option String := none
  initialTabs : List (Tab T) := []
  initialActiveTabId : Option String := none

namespace Tabs

structure State (T : Type) where
  tabs : List (Tab T)
  activeTabId : Option String
  /-- The item of the session storage. -/
  storage : Option (PersistedState T) := none
  /-- A tab was read where there is none. -/
  crashed : Bool := false
  deriving Repr, DecidableEq

inductive Event (T : Type) where
  | openTab (tab : Tab T)
  | closeTab (tabId : String)
  | setActiveTabId (tabId : String)
  | updateTabLabel (tabId label : String)
  /-- The effect that saves the state, where the storage takes it. -/
  | save
  | reload
  deriving DecidableEq

section Hook

variable {T : Type} (options : UseTabsOptions T) (throughJson : T → T)

/-- `storageKey` is not empty. -/
def stored : Bool := options.storageKey.any (· ≠ "")

def mount (storage : Option (PersistedState T)) : State T :=
  let initial := if stored options then storage else none
  { tabs := (initial.map (·.tabs)).getD options.initialTabs
    activeTabId := (initial.bind (·.activeTabId)).or options.initialActiveTabId
    storage }

def openTab (s : State T) (tab : Tab T) : State T :=
  match s.tabs.find? (·.id = tab.id) with
  | some _ => { s with activeTabId := some tab.id }
  | none =>
      let next := s.tabs ++ [tab]
      let next :=
        if options.maxTabs < next.length then
          match next.find? (some ·.id ≠ s.activeTabId) with
          | some oldestInactive => next.filter (·.id ≠ oldestInactive.id)
          | none => next
        else next
      { s with tabs := next, activeTabId := some tab.id }

def closeTab (s : State T) (tabId : String) : State T :=
  let idx := s.tabs.findIdx? (·.id = tabId)
  let next := s.tabs.filter (·.id ≠ tabId)
  if some tabId = s.activeTabId ∧ next ≠ [] then
    -- an index of -1 stays -1
    match idx.bind fun idx => next[min idx (next.length - 1)]? with
    | some tab => { s with tabs := next, activeTabId := some tab.id }
    | none => { s with crashed := true }
  else if next = [] then { s with tabs := next, activeTabId := none }
  else { s with tabs := next }

def updateTabLabel (s : State T) (tabId label : String) : State T :=
  { s with tabs := s.tabs.map fun t => if t.id = tabId then { t with label } else t }

def saveState (s : State T) : State T :=
  if stored options then
    { s with
      storage := some
        ⟨s.tabs.map fun t => { t with data := throughJson t.data }, s.activeTabId⟩ }
  else s

def step (s : State T) (e : Event T) : Option (State T) :=
  if s.crashed then none
  else
    match e with
    | .openTab tab => some (openTab options s tab)
    | .closeTab tabId => some (closeTab s tabId)
    | .setActiveTabId tabId =>
        if s.tabs.any (·.id = tabId) then some { s with activeTabId := some tabId } else none
    | .updateTabLabel tabId label => some (updateTabLabel s tabId label)
    | .save => some (saveState options throughJson s)
    | .reload => some (mount options s.storage)

end Hook

section Properties

variable {T : Type}

structure Consistent (maxTabs : Nat) (tabs : List (Tab T)) (activeTabId : Option String) :
    Prop where
  distinct : (tabs.map (·.id)).Nodup
  few : tabs.length ≤ maxTabs
  none_iff : activeTabId = none ↔ tabs = []
  active : ∀ tabId ∈ activeTabId, tabId ∈ tabs.map (·.id)

/-- What opening a tab does to the others. -/
structure Opened (tab : Tab T) (s s' : State T) : Prop where
  present : tab.id ∈ s'.tabs.map (·.id)
  active : s'.activeTabId = some tab.id
  /-- At most one other tab is gone, and it was not the active one. -/
  dropped : ∃ gone : List (Tab T), gone.length ≤ 1 ∧
    (∀ t ∈ gone, t.id ≠ tab.id ∧ some t.id ≠ s.activeTabId) ∧
    ∀ t ∈ s.tabs, t ∈ s'.tabs ∨ t ∈ gone

/-- The state after an event is consistent, no tab was read where there is none, and a tab that was
opened is there. -/
structure Kept (options : UseTabsOptions T) (s : State T) (e : Event T) (s' : State T) :
    Prop where
  consistent : Consistent options.maxTabs s'.tabs s'.activeTabId
  read : s'.crashed = false
  opened : ∀ tab, e = .openTab tab → Opened tab s s'

/-- The page, and what it would be loaded from. -/
structure Good (options : UseTabsOptions T) (s : State T) : Prop where
  consistent : Consistent options.maxTabs s.tabs s.activeTabId
  storage : ∀ saved ∈ s.storage, Consistent options.maxTabs saved.tabs saved.activeTabId
  read : s.crashed = false

/-- A page that is loaded again has tabs in the storage, or no id to make active without any. -/
def Reloads (options : UseTabsOptions T) (s : State T) (e : Event T) : Prop :=
  e = .reload → stored options = true → ∀ saved ∈ s.storage,
    saved.tabs = [] → options.initialActiveTabId = none

theorem Consistent.congr {maxTabs : Nat} {tabs tabs' : List (Tab T)} {activeTabId : Option String}
    (h : Consistent maxTabs tabs activeTabId) (hids : tabs'.map (·.id) = tabs.map (·.id)) :
    Consistent maxTabs tabs' activeTabId := by
  have hlen := congrArg List.length hids
  simp only [List.length_map] at hlen
  refine ⟨hids ▸ h.distinct, hlen ▸ h.few, ?_, fun tabId htab => hids ▸ h.active tabId htab⟩
  rw [h.none_iff, ← List.length_eq_zero_iff, ← List.length_eq_zero_iff, hlen]

theorem Consistent.of_active {maxTabs : Nat} {tabs : List (Tab T)} {tabId : String}
    (distinct : (tabs.map (·.id)).Nodup) (few : tabs.length ≤ maxTabs)
    (active : tabId ∈ tabs.map (·.id)) : Consistent maxTabs tabs (some tabId) := by
  refine ⟨distinct, few, ?_, fun t ht => Option.some.inj ht ▸ active⟩
  constructor
  · intro h
    cases h
  · intro h
    rw [h] at active
    cases active

/-! ## Opening a tab -/

theorem exists_inactive {tabs : List (Tab T)} (distinct : (tabs.map (·.id)).Nodup)
    (h : 2 ≤ tabs.length) (activeTabId : Option String) :
    ∃ t ∈ tabs, some t.id ≠ activeTabId := by
  match tabs, h with
  | a :: b :: _, _ =>
      have hne : a.id ≠ b.id := by
        intro heq
        simp [heq] at distinct
      by_cases ha : some a.id = activeTabId
      · refine ⟨b, by simp, fun hb => hne ?_⟩
        exact Option.some.inj (ha.trans hb.symm)
      · exact ⟨a, by simp, ha⟩

theorem eq_of_id_eq {tabs : List (Tab T)} (distinct : (tabs.map (·.id)).Nodup) {a b : Tab T}
    (ha : a ∈ tabs) (hb : b ∈ tabs) (h : a.id = b.id) : a = b :=
  List.inj_on_of_nodup_map distinct ha hb h

theorem nodup_filter {tabs : List (Tab T)} (distinct : (tabs.map (·.id)).Nodup)
    (p : Tab T → Bool) : ((tabs.filter p).map (·.id)).Nodup :=
  distinct.sublist (List.filter_sublist.map _)

variable {options : UseTabsOptions T} {s : State T}

theorem openTab_present {tab : Tab T} (hmem : tab.id ∈ s.tabs.map (·.id)) :
    openTab options s tab = { s with activeTabId := some tab.id } := by
  unfold openTab
  cases hfind : s.tabs.find? (·.id = tab.id) with
  | some t => rfl
  | none =>
      obtain ⟨t, ht, hid⟩ := List.mem_map.mp hmem
      have hno := List.find?_eq_none.mp hfind t ht
      exact absurd (decide_eq_true hid) hno

theorem find_none {id : String} {tabs : List (Tab T)} (h : id ∉ tabs.map (·.id)) :
    tabs.find? (·.id = id) = none := by
  rw [List.find?_eq_none]
  intro t ht hid
  exact h (List.mem_map.mpr ⟨t, ht, of_decide_eq_true hid⟩)

theorem openTab_room {tab : Tab T} (hmem : tab.id ∉ s.tabs.map (·.id))
    (hroom : s.tabs.length + 1 ≤ options.maxTabs) :
    openTab options s tab = { s with tabs := s.tabs ++ [tab], activeTabId := some tab.id } := by
  unfold openTab
  rw [find_none hmem]
  dsimp only
  rw [if_neg (by rw [List.length_append, List.length_singleton]; omega)]

theorem openTab_full {tab : Tab T} (hs : Consistent options.maxTabs s.tabs s.activeTabId)
    (hmax : 2 ≤ options.maxTabs) (hmem : tab.id ∉ s.tabs.map (·.id))
    (hfull : ¬ s.tabs.length + 1 ≤ options.maxTabs) :
    ∃ old ∈ s.tabs, some old.id ≠ s.activeTabId ∧
      openTab options s tab =
        { s with
          tabs := (s.tabs ++ [tab]).filter (·.id ≠ old.id), activeTabId := some tab.id } := by
  have hfew := hs.few
  obtain ⟨t, ht, hinactive⟩ := exists_inactive hs.distinct (by omega) s.activeTabId
  cases hold : s.tabs.find? (some ·.id ≠ s.activeTabId) with
  | none => exact absurd (decide_eq_true hinactive) (List.find?_eq_none.mp hold t ht)
  | some old =>
      refine ⟨old, List.mem_of_find?_eq_some hold, ?_, ?_⟩
      · simpa using List.find?_some hold
      · unfold openTab
        rw [find_none hmem]
        dsimp only
        rw [if_pos (by rw [List.length_append, List.length_singleton]; omega), List.find?_append,
          hold, Option.some_or]

theorem openTab_kept (hs : Consistent options.maxTabs s.tabs s.activeTabId)
    (hmax : 2 ≤ options.maxTabs) (tab : Tab T) :
    Consistent options.maxTabs (openTab options s tab).tabs (openTab options s tab).activeTabId ∧
      (openTab options s tab).crashed = s.crashed ∧
      (openTab options s tab).storage = s.storage ∧ Opened tab s (openTab options s tab) := by
  by_cases hmem : tab.id ∈ s.tabs.map (·.id)
  · rw [openTab_present hmem]
    refine ⟨Consistent.of_active hs.distinct hs.few hmem, rfl, rfl, hmem, rfl, [], ?_⟩
    exact ⟨Nat.zero_le 1, fun t ht => absurd ht List.not_mem_nil, fun t ht => Or.inl ht⟩
  · have hdistinct : ((s.tabs ++ [tab]).map (·.id)).Nodup := by
      rw [List.map_append, List.map_singleton]
      exact List.nodup_append.mpr ⟨hs.distinct, List.nodup_singleton _, fun a ha b hb hab =>
        hmem (List.mem_singleton.mp hb ▸ hab ▸ ha)⟩
    by_cases hroom : s.tabs.length + 1 ≤ options.maxTabs
    · rw [openTab_room hmem hroom]
      have hpresent : tab.id ∈ (s.tabs ++ [tab]).map (·.id) := by simp
      refine ⟨Consistent.of_active hdistinct (by simpa using hroom) hpresent, rfl, rfl, hpresent,
        rfl, [], ?_⟩
      exact ⟨Nat.zero_le 1, fun t ht => absurd ht List.not_mem_nil,
        fun t ht => Or.inl (List.mem_append_left _ ht)⟩
    · obtain ⟨old, hold, hinactive, heq⟩ := openTab_full hs hmax hmem hroom
      have hother : old.id ≠ tab.id := fun h => hmem (h ▸ List.mem_map_of_mem hold)
      have hpresent : tab.id ∈ ((s.tabs ++ [tab]).filter (·.id ≠ old.id)).map (·.id) := by
        refine List.mem_map_of_mem (List.mem_filter.mpr ⟨by simp, ?_⟩)
        exact decide_eq_true hother.symm
      have hless :
          ((s.tabs ++ [tab]).filter (·.id ≠ old.id)).length < (s.tabs ++ [tab]).length := by
        rw [List.length_filter_lt_length_iff_exists]
        exact ⟨old, List.mem_append_left _ hold, by simp⟩
      have hfew : ((s.tabs ++ [tab]).filter (·.id ≠ old.id)).length ≤ options.maxTabs := by
        have hle := hs.few
        rw [List.length_append, List.length_singleton] at hless
        omega
      rw [heq]
      refine ⟨Consistent.of_active (nodup_filter hdistinct _) hfew hpresent, rfl, rfl, hpresent,
        rfl, [old], Nat.le_refl 1, ?_, fun t ht => ?_⟩
      · intro t ht
        rw [List.mem_singleton.mp ht]
        exact ⟨hother, hinactive⟩
      · by_cases hid : t.id = old.id
        · exact Or.inr (List.mem_singleton.mpr (eq_of_id_eq hs.distinct ht hold hid))
        · exact Or.inl (List.mem_filter.mpr ⟨List.mem_append_left _ ht, decide_eq_true hid⟩)

theorem closeTab_kept (hs : Consistent options.maxTabs s.tabs s.activeTabId) (tabId : String) :
    Consistent options.maxTabs (closeTab s tabId).tabs (closeTab s tabId).activeTabId ∧
      (closeTab s tabId).crashed = s.crashed ∧ (closeTab s tabId).storage = s.storage := by
  have hdistinct := nodup_filter hs.distinct (·.id ≠ tabId)
  have hfew : (s.tabs.filter (·.id ≠ tabId)).length ≤ options.maxTabs :=
    Nat.le_trans (List.length_filter_le _ _) hs.few
  unfold closeTab
  dsimp only
  split
  next hactive =>
    -- the active tab is one of the tabs, so the index is one of what is left
    obtain ⟨hactive, hnext⟩ := hactive
    obtain ⟨t, ht, hid⟩ := List.mem_map.mp (hs.active tabId hactive.symm)
    have hindex : ∃ idx, s.tabs.findIdx? (·.id = tabId) = some idx := by
      rw [← Option.isSome_iff_exists, List.findIdx?_isSome, List.any_eq_true]
      exact ⟨t, ht, decide_eq_true hid⟩
    obtain ⟨idx, hidx⟩ := hindex
    have hlt : min idx ((s.tabs.filter (·.id ≠ tabId)).length - 1) <
        (s.tabs.filter (·.id ≠ tabId)).length := by
      have hpos := List.length_pos_iff.mpr hnext
      omega
    rw [hidx, Option.bind_some, List.getElem?_eq_getElem hlt]
    refine ⟨Consistent.of_active hdistinct hfew ?_, rfl, rfl⟩
    exact List.mem_map_of_mem (List.getElem_mem hlt)
  next hactive =>
    split
    next hnext =>
      refine ⟨⟨hdistinct, hfew, iff_of_true rfl hnext, fun t ht => nomatch ht⟩, rfl, rfl⟩
    next hnext =>
      refine ⟨?_, rfl, rfl⟩
      cases hid : s.activeTabId with
      | none =>
          rw [hs.none_iff.mp hid] at hnext
          exact absurd rfl hnext
      | some active =>
          refine Consistent.of_active hdistinct hfew ?_
          obtain ⟨t, ht, rfl⟩ := List.mem_map.mp (hs.active active hid)
          refine List.mem_map_of_mem (List.mem_filter.mpr ⟨ht, decide_eq_true fun heq => ?_⟩)
          exact hactive ⟨by rw [hid, heq], hnext⟩

/-! ## Runs -/

/-- What a page is loaded from is consistent exactly if no id is made active without tabs. -/
theorem mount_consistent_iff {storage : Option (PersistedState T)}
    (hinit : Consistent options.maxTabs options.initialTabs options.initialActiveTabId)
    (hstorage : ∀ saved ∈ storage, Consistent options.maxTabs saved.tabs saved.activeTabId) :
    Consistent options.maxTabs (mount options storage).tabs (mount options storage).activeTabId ↔
      (stored options = true → ∀ saved ∈ storage,
        saved.tabs = [] → options.initialActiveTabId = none) := by
  unfold mount
  dsimp only
  cases hstored : stored options with
  | false => exact iff_of_true hinit fun h => absurd h Bool.false_ne_true
  | true =>
      cases storage with
      | none => exact iff_of_true hinit fun _ saved h => nomatch h
      | some saved =>
          have hsaved := hstorage saved rfl
          simp only [if_true, Option.map_some, Option.getD_some, Option.bind_some, true_implies,
            Option.mem_some_iff, forall_eq']
          cases hactive : saved.activeTabId with
          | some tabId =>
              rw [Option.some_or, ← hactive]
              refine iff_of_true hsaved fun hnil => ?_
              rw [hsaved.none_iff.mpr hnil] at hactive
              cases hactive
          | none =>
              have hnil := hsaved.none_iff.mp hactive
              rw [Option.none_or]
              constructor
              · exact fun h _ => h.none_iff.mpr hnil
              · intro h
                rw [h hnil, ← hactive]
                exact hsaved

theorem updateTabLabel_ids (s : State T) (tabId label : String) :
    (updateTabLabel s tabId label).tabs.map (·.id) = s.tabs.map (·.id) := by
  unfold updateTabLabel
  rw [List.map_map]
  refine List.map_congr_left fun t _ => ?_
  show (if t.id = tabId then ({ t with label } : Tab T) else t).id = t.id
  split <;> rfl

variable (throughJson : T → T)

theorem saveState_storage (hs : Good options s) :
    ∀ saved ∈ (saveState options throughJson s).storage,
      Consistent options.maxTabs saved.tabs saved.activeTabId := by
  intro saved hsaved
  unfold saveState at hsaved
  split at hsaved
  · obtain rfl := Option.some.inj hsaved
    refine hs.consistent.congr ?_
    rw [List.map_map]
    rfl
  · exact hs.storage saved hsaved

theorem step_good (hmax : 2 ≤ options.maxTabs)
    (hinit : Consistent options.maxTabs options.initialTabs options.initialActiveTabId)
    {e : Event T} {s' : State T} (hs : Good options s) (hreload : Reloads options s e)
    (h : step options throughJson s e = some s') : Good options s' ∧ Kept options s e s' := by
  unfold step at h
  rw [hs.read, if_neg Bool.false_ne_true] at h
  cases e with
  | openTab tab =>
      obtain rfl := Option.some.inj h
      obtain ⟨hconsistent, hread, hstorage, hopened⟩ := openTab_kept hs.consistent hmax tab
      refine ⟨⟨hconsistent, by rw [hstorage]; exact hs.storage, by rw [hread, hs.read]⟩,
        hconsistent, by rw [hread, hs.read], fun t ht => ?_⟩
      obtain rfl := Event.openTab.inj ht
      exact hopened
  | closeTab tabId =>
      obtain rfl := Option.some.inj h
      obtain ⟨hconsistent, hread, hstorage⟩ := closeTab_kept hs.consistent tabId
      exact ⟨⟨hconsistent, by rw [hstorage]; exact hs.storage, by rw [hread, hs.read]⟩,
        hconsistent, by rw [hread, hs.read], fun t ht => nomatch ht⟩
  | setActiveTabId tabId =>
      dsimp only at h
      split at h
      next hopen =>
        obtain rfl := Option.some.inj h
        obtain ⟨t, ht, hid⟩ := List.any_eq_true.mp hopen
        have hconsistent := Consistent.of_active hs.consistent.distinct hs.consistent.few
          (List.mem_map.mpr ⟨t, ht, of_decide_eq_true hid⟩)
        exact ⟨⟨hconsistent, hs.storage, rfl⟩, hconsistent, rfl, fun t ht => nomatch ht⟩
      next => cases h
  | updateTabLabel tabId label =>
      obtain rfl := Option.some.inj h
      have hconsistent := hs.consistent.congr (updateTabLabel_ids s tabId label)
      exact ⟨⟨hconsistent, hs.storage, hs.read⟩, hconsistent, hs.read, fun t ht => nomatch ht⟩
  | save =>
      obtain rfl := Option.some.inj h
      have hsame : (saveState options throughJson s).tabs = s.tabs ∧
          (saveState options throughJson s).activeTabId = s.activeTabId ∧
          (saveState options throughJson s).crashed = s.crashed := by
        unfold saveState
        split <;> exact ⟨rfl, rfl, rfl⟩
      obtain ⟨htabs, hactive, hread⟩ := hsame
      have hconsistent := hs.consistent
      rw [← htabs, ← hactive] at hconsistent
      have hread := hread.trans hs.read
      exact ⟨⟨hconsistent, saveState_storage throughJson hs, hread⟩, hconsistent, hread,
        fun t ht => nomatch ht⟩
  | reload =>
      obtain rfl := Option.some.inj h
      have hconsistent := (mount_consistent_iff hinit hs.storage).mpr (hreload rfl)
      exact ⟨⟨hconsistent, hs.storage, rfl⟩, hconsistent, rfl, fun t ht => nomatch ht⟩

/-- The tabs stay in step with the active id exactly when no page is loaded with an active id for
which the storage has no tabs. -/
theorem tabs_kept_iff (hmax : 2 ≤ options.maxTabs)
    (hinit : Consistent options.maxTabs options.initialTabs options.initialActiveTabId)
    (hs : Good options s) (events : List (Event T)) :
    EachStep (step options throughJson) (Kept options) s events ↔
      EachStep (step options throughJson) (fun s e _ => Reloads options s e) s events := by
  refine eachStep_iff (I := Good options) ?_ ?_ hs
  · intro s e s' hs hreload h
    exact step_good throughJson hmax hinit hs hreload h
  · rintro s e s' hs hkept h rfl
    unfold step at h
    rw [hs.read, if_neg Bool.false_ne_true] at h
    obtain rfl := Option.some.inj h
    exact (mount_consistent_iff hinit hs.storage).mp hkept.consistent

end Properties

/-- A page with one tab to begin with, which it also keeps in the session storage. -/
def onePage : UseTabsOptions Unit where
  maxTabs := 2
  storageKey := some "tabs"
  initialTabs := [⟨"a", "A", ()⟩]
  initialActiveTabId := some "a"

theorem onePage_consistent : Consistent onePage.maxTabs onePage.initialTabs
    onePage.initialActiveTabId :=
  Consistent.of_active (by decide) (by decide) (by decide)

theorem onePage_good : Good onePage (mount onePage none) :=
  ⟨onePage_consistent, fun _ h => (nomatch h), rfl⟩

/-- Three tabs on a page for two, saved and loaded again. -/
theorem tabs_kept_reloaded :
    EachStep (step onePage id) (Kept onePage) (mount onePage none)
      [.openTab ⟨"b", "B", ()⟩, .openTab ⟨"c", "C", ()⟩, .closeTab "c", .save, .reload] :=
  (tabs_kept_iff id (by decide) onePage_consistent onePage_good _).mpr (by
    unfold Reloads
    decide)

/-- The last tab is closed, and the page is loaded again: the closed tab is active. -/
theorem reload_without_tabs :
    ¬ EachStep (step onePage id) (Kept onePage) (mount onePage none)
      [.closeTab "a", .save, .reload] := by
  intro h
  have hreload := (eachStep_cons rfl).mp ((eachStep_cons rfl).mp ((eachStep_cons rfl).mp h).2).2
  have hnil := hreload.1.consistent.none_iff.mpr rfl
  exact absurd hnil (by decide)

end Tabs

end NestGateway.Ui
