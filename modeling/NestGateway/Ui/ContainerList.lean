import Mathlib.Data.Finset.Basic
import NestGateway.Core.JsString
import NestGateway.Core.StableSort
import NestGateway.LogStreamer.Listing

/-! # The list of containers

The side bar of the live stream groups the containers that the search matches by
their service and puts the favourites first. The favourites are kept in the
local storage of the browser, which a page that is loaded again reads.
-/

namespace NestGateway.Ui

open GoBytes LogStreamer LogStreamer.Listing StableSort

structure ServiceGroup where
  serviceName : Bytes
  containers : List ContainerInfo

namespace ContainerList

def addToService (serviceMap : JsMap Bytes (List ContainerInfo)) (c : ContainerInfo) :
    JsMap Bytes (List ContainerInfo) :=
  serviceMap.set c.serviceName ((serviceMap.get c.serviceName).getD [] ++ [c])

/-- One turn of the loop of `groupByService`. -/
def place (acc : JsMap Bytes (List ContainerInfo) × List ContainerInfo) (c : ContainerInfo) :
    JsMap Bytes (List ContainerInfo) × List ContainerInfo :=
  if c.serviceName ≠ [] then (addToService acc.1 c, acc.2) else (acc.1, acc.2 ++ [c])

structure Groups where
  services : List ServiceGroup
  standalone : List ContainerInfo

def groupByService (containers : List ContainerInfo) : Groups :=
  let acc := containers.foldl place (.empty, [])
  ⟨acc.1.entries.map fun e => ⟨e.1, e.2⟩, acc.2⟩

inductive FavoriteType where
  | service | container
  deriving Repr, DecidableEq

def FavoriteType.word : FavoriteType → String
  | .service => "service"
  | .container => "container"

def makeFavoriteId (type : FavoriteType) (key : Bytes) : Bytes :=
  Listing.text (type.word ++ "-") ++ key

/-- What the page makes of texts. -/
structure Texts where
  /-- The text of a field of the response. -/
  decode : Bytes → String
  /-- By the tables of Unicode. -/
  toLowerCase : String → String

structure State where
  favorites : Finset Bytes
  /-- The item of the local storage; none when there is none or it cannot be parsed. -/
  storage : Option (Finset Bytes)
  searchQuery : String
  showFavoritesOnly : Bool
  containers : List ContainerInfo

inductive Event where
  /-- `saved` when the storage takes the item. -/
  | toggleFavorite (type : FavoriteType) (key : Bytes) (saved : Bool)
  | setSearchQuery (query : String)
  | toggleShowFavoritesOnly
  /-- A poll of the containers is answered. -/
  | listed (containers : List ContainerInfo)
  /-- The page is loaded again; `readable` when the storage gives the item. -/
  | reload (readable : Bool)

def loadFavorites (storage : Option (Finset Bytes)) (readable : Bool) : Finset Bytes :=
  if readable then storage.getD ∅ else ∅

def mount (storage : Option (Finset Bytes)) (readable : Bool) : State where
  favorites := loadFavorites storage readable
  storage
  searchQuery := ""
  showFavoritesOnly := false
  containers := []

def toggled (prev : Finset Bytes) (id : Bytes) : Finset Bytes :=
  if id ∈ prev then prev.erase id else insert id prev

def step (s : State) : Event → State
  | .toggleFavorite type key saved =>
      let next := toggled s.favorites (makeFavoriteId type key)
      { s with favorites := next, storage := if saved then some next else s.storage }
  | .setSearchQuery query => { s with searchQuery := query }
  | .toggleShowFavoritesOnly => { s with showFavoritesOnly := !s.showFavoritesOnly }
  | .listed containers => { s with containers }
  | .reload readable => mount s.storage readable

namespace State

variable (texts : Texts) (s : State)

def filtered : List ContainerInfo :=
  let q := texts.toLowerCase (JsString.trim s.searchQuery)
  if q = "" then s.containers
  else
    s.containers.filter fun c =>
      Text.contains (texts.toLowerCase (texts.decode c.name)) q ||
        c.serviceName ≠ [] && Text.contains (texts.toLowerCase (texts.decode c.serviceName)) q

def favorited (type : FavoriteType) (key : Bytes) : Bool := makeFavoriteId type key ∈ s.favorites

end State

def rank {α : Type} (favorited : α → Bool) (a : α) : Nat := if favorited a then 0 else 1

def sortByFavorite {α : Type} (favorited : α → Bool) (items : List α) : List α :=
  items.insertionSort fun a b => rank favorited a ≤ rank favorited b

namespace State

variable (texts : Texts) (s : State)

def services : List ServiceGroup :=
  let favorited := fun svc : ServiceGroup => s.favorited .service svc.serviceName
  let allServices := (groupByService (s.filtered texts)).services
  sortByFavorite favorited
    (if s.showFavoritesOnly then allServices.filter favorited else allServices)

def standalone : List ContainerInfo :=
  let favorited := fun c : ContainerInfo => s.favorited .container c.id
  let allStandalone := (groupByService (s.filtered texts)).standalone
  sortByFavorite favorited
    (if s.showFavoritesOnly then allStandalone.filter favorited else allStandalone)

end State

/-! ## Grouping -/

/-- The names of the services, in the order of their first containers. -/
def serviceNames (containers : List ContainerInfo) : List Bytes :=
  ((containers.map (·.serviceName)).filter (· ≠ [])).eraseDups

def ofService (name : Bytes) (containers : List ContainerInfo) : List ContainerInfo :=
  containers.filter (·.serviceName = name)

section Grouping

variable {containers : List ContainerInfo} {c : ContainerInfo} {name : Bytes}

theorem eraseDups_concat (names : List Bytes) (name : Bytes) : (names ++ [name]).eraseDups =
    if name ∈ names then names.eraseDups else names.eraseDups ++ [name] := by
  rw [List.eraseDups_append]
  unfold List.removeAll
  split <;> simp [*, List.eraseDups_cons]

theorem nodup_eraseDups (names : List Bytes) : names.eraseDups.Nodup := by
  induction names using List.reverseRecOn with
  | nil => exact List.nodup_nil
  | append_singleton names name ih =>
      rw [eraseDups_concat]
      split
      next => exact ih
      next hnew =>
        have hfresh : name ∉ names.eraseDups := mt List.mem_eraseDups.mp hnew
        rw [← List.concat_eq_append]
        exact ih.concat hfresh

theorem mem_serviceNames :
    name ∈ serviceNames containers ↔ name ≠ [] ∧ ∃ c ∈ containers, c.serviceName = name := by
  unfold serviceNames
  rw [List.mem_eraseDups, List.mem_filter, List.mem_map]
  simp [and_comm]

theorem nodup_serviceNames : (serviceNames containers).Nodup := nodup_eraseDups _

theorem serviceNames_append : serviceNames (containers ++ [c]) =
    if c.serviceName = [] ∨ c.serviceName ∈ serviceNames containers then serviceNames containers
    else serviceNames containers ++ [c.serviceName] := by
  by_cases hnone : c.serviceName = []
  · rw [if_pos (Or.inl hnone)]
    simp [serviceNames, hnone]
  · have happend : ((containers ++ [c]).map (·.serviceName)).filter (· ≠ []) =
        (containers.map (·.serviceName)).filter (· ≠ []) ++ [c.serviceName] := by
      simp [hnone]
    unfold serviceNames
    rw [happend, eraseDups_concat]
    simp only [hnone, false_or, List.mem_eraseDups]

theorem ofService_append : ofService name (containers ++ [c]) =
    if c.serviceName = name then ofService name containers ++ [c]
    else ofService name containers := by
  unfold ofService
  rw [List.filter_append]
  split <;> simp [*]

theorem ofService_of_not_mem (hne : name ≠ []) (h : name ∉ serviceNames containers) :
    ofService name containers = [] := by
  refine List.filter_eq_nil_iff.mpr fun c hc hname => h ?_
  exact mem_serviceNames.mpr ⟨hne, c, hc, of_decide_eq_true hname⟩

theorem foldl_place (containers : List ContainerInfo) :
    (containers.foldl place (.empty, [])).1.entries =
        (serviceNames containers).map (fun name => (name, ofService name containers)) ∧
      (containers.foldl place (.empty, [])).2 = ofService [] containers := by
  induction containers using List.reverseRecOn with
  | nil => exact ⟨rfl, rfl⟩
  | append_singleton containers c ih =>
      rw [List.foldl_append, List.foldl_cons, List.foldl_nil, serviceNames_append]
      simp only [ofService_append]
      generalize containers.foldl place (.empty, []) = acc at ih ⊢
      obtain ⟨hentries, hstandalone⟩ := ih
      unfold place
      by_cases hnone : c.serviceName = []
      · rw [if_neg (not_not.mpr hnone), if_pos (Or.inl hnone), if_pos hnone, hstandalone, hentries]
        refine ⟨List.map_congr_left fun name hname => ?_, rfl⟩
        rw [if_neg]
        rintro rfl
        exact (mem_serviceNames.mp hname).1 hnone
      · rw [if_pos hnone, if_neg hnone]
        refine ⟨?_, hstandalone⟩
        unfold addToService JsMap.set JsMap.get
        dsimp only
        rw [hentries]
        by_cases hknown : c.serviceName ∈ serviceNames containers
        · rw [if_pos (Or.inr hknown), JsMap.lookup_map hknown,
            JsMap.setEntry_map nodup_serviceNames hknown]
          refine List.map_congr_left fun name _ => ?_
          split
          next heq => simp [heq]
          next => rfl
        · have hfresh : c.serviceName ∉ (List.map Prod.fst
              ((serviceNames containers).map fun name => (name, ofService name containers))) := by
            rw [List.map_map]
            simpa [Function.comp_def] using hknown
          have hnames : ∀ name ∈ serviceNames containers, c.serviceName ≠ name := by
            rintro name hname rfl
            exact hknown hname
          rw [if_neg (not_or.mpr ⟨hnone, hknown⟩), JsMap.setEntry_of_not_mem _ hfresh,
            JsMap.lookup_of_not_mem hfresh, List.map_append, List.map_singleton, if_pos rfl,
            ofService_of_not_mem hnone hknown]
          refine congrArg (· ++ _) (List.map_congr_left fun name hname => ?_)
          rw [if_neg (hnames name hname)]

theorem groupByService_eq (containers : List ContainerInfo) :
    groupByService containers =
      ⟨(serviceNames containers).map fun name => ⟨name, ofService name containers⟩,
        ofService [] containers⟩ := by
  obtain ⟨hentries, hstandalone⟩ := foldl_place containers
  unfold groupByService
  dsimp only
  rw [hentries, hstandalone, List.map_map]
  rfl

end Grouping

/-- A container that is searched for: what is left of the query, in lower case, stands in its name
or in that of its service. A query that is blank stands in every name. -/
def Matches (texts : Texts) (query : String) (c : ContainerInfo) : Prop :=
  let q := texts.toLowerCase (JsString.trim query)
  q.toList <:+: (texts.toLowerCase (texts.decode c.name)).toList ∨
    c.serviceName ≠ [] ∧ q.toList <:+: (texts.toLowerCase (texts.decode c.serviceName)).toList

instance (texts : Texts) (query : String) (c : ContainerInfo) :
    Decidable (Matches texts query c) :=
  inferInstanceAs (Decidable (_ ∨ _ ∧ _))

theorem filtered_eq (texts : Texts) (s : State) :
    s.filtered texts = s.containers.filter fun c => Matches texts s.searchQuery c := by
  unfold State.filtered
  dsimp only
  split
  next hblank =>
    symm
    rw [List.filter_eq_self]
    intro c _
    refine decide_eq_true (Or.inl ?_)
    rw [hblank]
    exact List.nil_infix
  next =>
    refine List.filter_congr fun c _ => ?_
    rw [Bool.eq_iff_iff, decide_eq_true_iff]
    simp [Matches, Text.contains_iff]

/-! ## Favourites first -/

theorem sortByFavorite_eq {α : Type} (favorited : α → Bool) (items : List α) :
    sortByFavorite favorited items =
      items.filter favorited ++ items.filter fun a => !favorited a := by
  unfold sortByFavorite
  induction items with
  | nil => rfl
  | cons a items ih =>
      rw [List.insertionSort_cons, ih]
      cases ha : favorited a
      · -- it goes behind the favourites, of which none is as low as it
        have hbehind : ∀ x ∈ items.filter favorited, ¬ rank favorited a ≤ rank favorited x := by
          intro x hx
          simp [rank, ha, (List.mem_filter.mp hx).2]
        have hbefore : ∀ x ∈ items.filter (fun a => !favorited a),
            rank favorited a ≤ rank favorited x := by
          intro x hx
          have hnot := (List.mem_filter.mp hx).2
          simp_all [rank]
        rw [orderedInsert_append_of_not a _ _ hbehind hbefore,
          List.filter_cons_of_neg (by simp [ha]), List.filter_cons_of_pos (by simp [ha])]
      · have hbefore : ∀ x ∈ items.filter favorited ++ items.filter (fun a => !favorited a),
            rank favorited a ≤ rank favorited x := by
          intro x _
          simp [rank, ha]
        rw [List.filter_cons_of_pos ha, List.filter_cons_of_neg (by simp [ha])]
        exact orderedInsert_append_of_not a [] _ nofun hbefore

/-- The items of one kind: the favourites, then the others unless they are hidden. -/
def favoritesFirst {α : Type} (showFavoritesOnly : Bool) (favorited : α → Bool) (items : List α) :
    List α :=
  items.filter favorited ++ if showFavoritesOnly then [] else items.filter fun a => !favorited a

theorem sortByFavorite_shown {α : Type} (showFavoritesOnly : Bool) (favorited : α → Bool)
    (items : List α) :
    sortByFavorite favorited (if showFavoritesOnly then items.filter favorited else items) =
      favoritesFirst showFavoritesOnly favorited items := by
  unfold favoritesFirst
  rw [sortByFavorite_eq]
  cases showFavoritesOnly
  · rfl
  · simp

theorem makeFavoriteId_inj {type type' : FavoriteType} {key key' : Bytes}
    (h : makeFavoriteId type key = makeFavoriteId type' key') : type = type' ∧ key = key' := by
  have hhead := congrArg List.head? h
  cases type <;> cases type'
  · exact ⟨rfl, List.append_cancel_left h⟩
  · exact absurd (Option.some.inj hhead) (by decide)
  · exact absurd (Option.some.inj hhead) (by decide)
  · exact ⟨rfl, List.append_cancel_left h⟩

/-- The local storage takes and gives its items. -/
def Event.Works : Event → Prop
  | .toggleFavorite _ _ saved => saved = true
  | .reload readable => readable = true
  | .setSearchQuery _ | .toggleShowFavoritesOnly | .listed _ => True

/-- The star of an item is clicked. -/
def Event.toggles (type : FavoriteType) (key : Bytes) : Event → Bool
  | .toggleFavorite type' key' _ => type' = type ∧ key' = key
  | .setSearchQuery _ | .toggleShowFavoritesOnly | .listed _ | .reload _ => false

theorem mem_toggled {prev : Finset Bytes} {id id' : Bytes} :
    id' ∈ toggled prev id ↔ (id' ∈ prev ↔ id' ≠ id) := by
  unfold toggled
  by_cases hid : id' = id
  · subst hid
    by_cases hmem : id' ∈ prev <;> simp [hmem]
  · by_cases hmem : id ∈ prev <;> simp [hmem, hid]

def Stored (s : State) : Prop := s.favorites = s.storage.getD ∅

theorem stored_step {s : State} {e : Event} (h : Stored s) (works : e.Works) :
    Stored (step s e) := by
  cases e with
  | toggleFavorite type key saved =>
      obtain rfl : saved = true := works
      rfl
  | setSearchQuery query => exact h
  | toggleShowFavoritesOnly => exact h
  | listed containers => exact h
  | reload readable =>
      obtain rfl : readable = true := works
      rfl

theorem favorited_step {s : State} {e : Event} (h : Stored s) (works : e.Works)
    (type : FavoriteType) (key : Bytes) :
    (step s e).favorited type key = (s.favorited type key ^^ e.toggles type key) := by
  cases e with
  | toggleFavorite type' key' saved =>
      have hsame : makeFavoriteId type key = makeFavoriteId type' key' ↔
          type' = type ∧ key' = key := by
        constructor
        · intro hid
          obtain ⟨htype, hkey⟩ := makeFavoriteId_inj hid
          exact ⟨htype.symm, hkey.symm⟩
        · rintro ⟨rfl, rfl⟩
          rfl
      show decide (makeFavoriteId type key ∈ toggled _ _) =
        (_ ^^ decide (type' = type ∧ key' = key))
      unfold State.favorited
      simp only [mem_toggled, ← hsame]
      by_cases hid : makeFavoriteId type key = makeFavoriteId type' key' <;> simp [hid]
  | setSearchQuery query => exact (Bool.xor_false _).symm
  | toggleShowFavoritesOnly => exact (Bool.xor_false _).symm
  | listed containers => exact (Bool.xor_false _).symm
  | reload readable =>
      obtain rfl : readable = true := works
      have hloaded : (step s (.reload true)).favorites = s.favorites := h.symm
      unfold State.favorited
      rw [hloaded]
      exact (Bool.xor_false _).symm

theorem favorited_run {events : List Event} {s : State} (h : Stored s)
    (works : ∀ e ∈ events, e.Works) (type : FavoriteType) (key : Bytes) :
    (events.foldl step s).favorited type key =
      (s.favorited type key ^^ decide (events.countP (·.toggles type key) % 2 = 1)) := by
  induction events generalizing s with
  | nil => simp
  | cons e events ih =>
      have hworks := works e List.mem_cons_self
      rw [List.foldl_cons, ih (stored_step h hworks) fun e' he' => works e' (.tail e he'),
        favorited_step h hworks, List.countP_cons]
      cases e.toggles type key
      · simp
      · rcases Nat.mod_two_eq_zero_or_one (events.countP (·.toggles type key)) with heven | hodd
        · simp [heven, Nat.add_mod]
        · simp [hodd, Nat.add_mod]

/-- Whatever is searched, listed and loaded again, an item is a favourite when its star was clicked
an odd number of times, if it was none before, and the side bar has the containers that match under
their services, each service once, or on their own, with the favourites first. -/
theorem side_bar (texts : Texts) (storage : Option (Finset Bytes)) {events : List Event}
    (works : ∀ e ∈ events, e.Works) :
    let s := events.foldl step (mount storage true)
    let found := s.containers.filter fun c => Matches texts s.searchQuery c
    (∀ type key, s.favorited type key =
        (decide (makeFavoriteId type key ∈ storage.getD ∅) ^^
          decide (events.countP (·.toggles type key) % 2 = 1))) ∧
      s.services texts =
        favoritesFirst s.showFavoritesOnly (fun svc => s.favorited .service svc.serviceName)
          ((serviceNames found).map fun name => ⟨name, ofService name found⟩) ∧
      s.standalone texts =
        favoritesFirst s.showFavoritesOnly (fun c => s.favorited .container c.id)
          (ofService [] found) := by
  intro s found
  have hmount : Stored (mount storage true) := rfl
  refine ⟨fun type key => favorited_run hmount works type key, ?_, ?_⟩
  · unfold State.services
    dsimp only
    rw [sortByFavorite_shown, groupByService_eq, filtered_eq]
  · unfold State.standalone
    dsimp only
    rw [sortByFavorite_shown, groupByService_eq, filtered_eq]

def web : ContainerInfo where
  id := Listing.text "0123456789ab"
  name := Listing.text "shop_web.1"
  image := Listing.text "nginx"
  status := Listing.text "Up 2 hours"
  state := Listing.text "running"
  created := 0
  ports := []
  serviceName := Listing.text "shop_web"
  taskSlot := []
  nodeName := []

/-- The star of a service is clicked, and the page is loaded again. -/
def starred : List Event :=
  [.listed [web], .toggleFavorite .service web.serviceName true, .reload true, .listed [web]]

theorem side_bar_starred : (∀ e ∈ starred, e.Works) ∧
    (starred.foldl step (mount none true)).favorited .service web.serviceName = true := by
  have works : ∀ e ∈ starred, e.Works := by
    simp [starred, Event.Works]
  have hfavorited := (side_bar ⟨fun _ => "", id⟩ none works).1 .service web.serviceName
  exact ⟨works, hfavorited.trans (by decide)⟩

end ContainerList

end NestGateway.Ui
