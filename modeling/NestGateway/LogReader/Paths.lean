import NestGateway.LogReader.Files

/-! # Where a path leads

A path is walked element by element: a name goes down, two dots go up. Cleaning a
path does not change where it leads, and joining paths continues the walk.
-/

namespace NestGateway.LogReader

open Text

theorem not_mem_of_mem_splitOn {c : Char} {cs l : List Char} (h : l ∈ cs.splitOn c) : c ∉ l := by
  induction cs generalizing l with
  | nil =>
      rw [List.splitOn_nil, List.mem_singleton] at h
      exact h ▸ List.not_mem_nil
  | cons d cs ih =>
      rw [List.splitOn_cons_eq_if_modifyHead] at h
      by_cases hd : (d == c) = true
      · rw [if_pos hd] at h
        rcases List.mem_cons.mp h with rfl | hmem
        · exact List.not_mem_nil
        · exact ih hmem
      · rw [if_neg hd] at h
        cases hsplit : cs.splitOn c with
        | nil => exact absurd hsplit (List.splitOn_ne_nil c cs)
        | cons head tail =>
            rw [hsplit, List.modifyHead_cons] at h
            rcases List.mem_cons.mp h with rfl | hmem
            · intro hc
              rcases List.mem_cons.mp hc with rfl | hc
              · simp at hd
              · exact ih (hsplit ▸ List.mem_cons_self) hc
            · exact ih (hsplit ▸ List.mem_cons_of_mem _ hmem)

theorem slash_not_mem_pathElements {path elem : String} (h : elem ∈ pathElements path) :
    '/' ∉ elem.toList := by
  obtain ⟨cs, hmem, rfl⟩ := List.mem_map.mp h
  rw [String.toList_ofList]
  exact not_mem_of_mem_splitOn hmem

theorem pathElements_append (a b : String) :
    pathElements (a ++ "/" ++ b) = pathElements a ++ pathElements b := by
  have hchars : (a ++ "/" ++ b).toList = a.toList ++ '/' :: b.toList := by
    rw [String.toList_append, String.toList_append, List.append_assoc]
    rfl
  rw [pathElements, hchars, List.splitOn_append_cons_self, List.map_append]
  rfl

theorem pathElements_of_not_mem {elem : String} (h : '/' ∉ elem.toList) :
    pathElements elem = [elem] := by
  rw [pathElements, List.splitOn_eq_singleton h, List.map_singleton, String.ofList_toList]

theorem pathElements_intercalate {elems : List String} (hne : elems ≠ [])
    (h : ∀ elem ∈ elems, '/' ∉ elem.toList) :
    pathElements (String.intercalate "/" elems) = elems := by
  have hslash : "/".toList = ['/'] := rfl
  rw [pathElements, String.toList_intercalate, hslash, List.splitOn_intercalate]
  · rw [List.map_map]
    exact (List.map_congr_left fun elem _ => String.ofList_toList).trans (List.map_id elems)
  · intro l hl
    obtain ⟨elem, hmem, rfl⟩ := List.mem_map.mp hl
    exact h elem hmem
  · exact fun hnil => hne (List.map_eq_nil_iff.mp hnil)

/-- The elements a path leads through once the dots are resolved, the last on top. -/
def place (path : String) : List String :=
  (pathElements path).foldl (cleanElement (startsWith path "/")) []

/-- An element that a walk goes down into. -/
structure IsName (elem : String) : Prop where
  ne_empty : elem ≠ ""
  ne_dot : elem ≠ "."
  ne_dotDot : elem ≠ ".."
  no_slash : '/' ∉ elem.toList

/-- A stack without a step to resolve: names above leading steps up, which a rooted walk lacks. -/
inductive Settled (rooted : Bool) : List String → Prop
  | nil : Settled rooted []
  | up {stack : List String} (free : rooted = false) (above : ∀ elem ∈ stack, elem = "..")
      (settled : Settled rooted stack) : Settled rooted (".." :: stack)
  | name {elem : String} {stack : List String} (isName : IsName elem)
      (settled : Settled rooted stack) : Settled rooted (elem :: stack)

variable {rooted : Bool} {stack : List String} {elem : String}

theorem cleanElement_name (h : IsName elem) : cleanElement rooted stack elem = elem :: stack := by
  simp only [cleanElement, h.ne_empty, h.ne_dot, h.ne_dotDot, decide_false, Bool.or_self,
    Bool.false_eq_true, if_false]

theorem cleanElement_up_free (free : rooted = false) (above : ∀ elem ∈ stack, elem = "..") :
    cleanElement rooted stack ".." = ".." :: stack := by
  subst free
  cases stack with
  | nil => rfl
  | cons top below =>
      rw [above top List.mem_cons_self]
      rfl

theorem Settled.cleanElement (settled : Settled rooted stack) (h : '/' ∉ elem.toList) :
    Settled rooted (cleanElement rooted stack elem) := by
  by_cases hempty : elem = ""
  · subst hempty
    exact settled
  by_cases hdot : elem = "."
  · subst hdot
    exact settled
  by_cases hup : elem = ".."
  · subst hup
    cases settled with
    | nil =>
        cases rooted with
        | true => exact .nil
        | false => exact .up rfl (fun _ hmem => absurd hmem List.not_mem_nil) .nil
    | @up below free above settled =>
        rw [cleanElement_up_free free]
        · exact .up free (fun e hmem => (List.mem_cons.mp hmem).elim id (above e))
            (.up free above settled)
        · exact fun e hmem => (List.mem_cons.mp hmem).elim id (above e)
    | @name top below isName settled =>
        have hpop : LogReader.cleanElement rooted (top :: below) ".." = below := by
          change (if top = ".." then _ else below) = below
          rw [if_neg isName.ne_dotDot]
        rw [hpop]
        exact settled
  · rw [cleanElement_name ⟨hempty, hdot, hup, h⟩]
    exact .name ⟨hempty, hdot, hup, h⟩ settled

theorem Settled.foldl {elems : List String} (settled : Settled rooted stack)
    (h : ∀ elem ∈ elems, '/' ∉ elem.toList) :
    Settled rooted (elems.foldl (LogReader.cleanElement rooted) stack) := by
  induction elems generalizing stack with
  | nil => exact settled
  | cons elem elems ih =>
      exact ih (settled.cleanElement (h elem List.mem_cons_self)) fun e hmem =>
        h e (List.mem_cons_of_mem _ hmem)

theorem settled_place (path : String) : Settled (startsWith path "/") (place path) :=
  Settled.nil.foldl fun _ hmem => slash_not_mem_pathElements hmem

theorem Settled.no_slash (settled : Settled rooted stack) (h : elem ∈ stack) :
    '/' ∉ elem.toList := by
  induction settled with
  | nil => exact absurd h List.not_mem_nil
  | up free above settled ih =>
      rcases List.mem_cons.mp h with rfl | hmem
      · decide
      · exact ih hmem
  | name isName settled ih =>
      rcases List.mem_cons.mp h with rfl | hmem
      · exact isName.no_slash
      · exact ih hmem

theorem Settled.foldl_reverse (settled : Settled rooted stack) :
    stack.reverse.foldl (LogReader.cleanElement rooted) [] = stack := by
  induction settled with
  | nil => rfl
  | up free above settled ih =>
      rw [List.reverse_cons, List.foldl_append, ih]
      exact cleanElement_up_free free above
  | name isName settled ih =>
      rw [List.reverse_cons, List.foldl_append, ih]
      exact cleanElement_name isName

theorem Settled.ne_empty (settled : Settled rooted stack) (h : elem ∈ stack) : elem ≠ "" := by
  induction settled with
  | nil => exact absurd h List.not_mem_nil
  | up free above settled ih =>
      rcases List.mem_cons.mp h with rfl | hmem
      · decide
      · exact ih hmem
  | name isName settled ih =>
      rcases List.mem_cons.mp h with rfl | hmem
      · exact isName.ne_empty
      · exact ih hmem

theorem startsWith_slash (rest : String) : startsWith ("/" ++ rest) "/" = true := by
  have hchars : ("/" ++ rest).toList = '/' :: rest.toList := String.toList_append
  rw [startsWith, hchars]
  rfl

theorem exists_of_startsWith_slash {path : String} (h : startsWith path "/" = true) :
    ∃ rest, path = "/" ++ rest := by
  obtain ⟨rest, hrest⟩ := List.isPrefixOf_iff_prefix.mp h
  refine ⟨String.ofList rest, String.toList_inj.mp ?_⟩
  rw [String.toList_append, ← hrest]
  exact congrArg ("/".toList ++ ·) String.toList_ofList.symm

theorem startsWith_append {a : String} (h : a ≠ "") (b : String) :
    startsWith (a ++ b) "/" = startsWith a "/" := by
  rw [startsWith, startsWith, String.toList_append]
  cases ha : a.toList with
  | nil => exact absurd (String.toList_eq_nil_iff.mp ha) h
  | cons c cs => rfl

theorem pathElements_slash (rest : String) :
    pathElements ("/" ++ rest) = "" :: pathElements rest := pathElements_append "" rest

theorem Settled.pathElements (settled : Settled rooted stack) (h : stack ≠ []) :
    pathElements (String.intercalate "/" stack.reverse) = stack.reverse := by
  refine pathElements_intercalate (fun hnil => h (List.reverse_eq_nil_iff.mp hnil)) ?_
  exact fun elem hmem => settled.no_slash (List.mem_reverse.mp hmem)

theorem cleanPath_eq (path : String) : cleanPath path =
    let body := String.intercalate "/" (place path).reverse
    if startsWith path "/" then "/" ++ body else if body = "" then "." else body := rfl

theorem clean_leads (path : String) :
    startsWith (cleanPath path) "/" = startsWith path "/" ∧
      place (cleanPath path) = place path := by
  have settled := settled_place path
  rw [cleanPath_eq]
  generalize place path = stack at settled ⊢
  cases hrooted : startsWith path "/" with
  | true =>
      simp only [if_true]
      refine ⟨startsWith_slash _, ?_⟩
      rw [place, startsWith_slash, pathElements_slash, List.foldl_cons]
      by_cases hstack : stack = []
      · subst hstack
        rfl
      · rw [settled.pathElements hstack]
        exact (hrooted ▸ settled).foldl_reverse
  | false =>
      simp only [Bool.false_eq_true, if_false]
      by_cases hstack : stack = []
      · subst hstack
        exact ⟨rfl, rfl⟩
      · have helems := settled.pathElements hstack
        have hfree : ∀ rest, String.intercalate "/" stack.reverse ≠ "/" ++ rest := by
          intro rest heq
          rw [heq, pathElements_slash] at helems
          have hmem : "" ∈ stack.reverse := helems ▸ List.mem_cons_self
          exact settled.ne_empty (List.mem_reverse.mp hmem) rfl
        have hne : String.intercalate "/" stack.reverse ≠ "" := by
          intro heq
          rw [heq] at helems
          have hmem : "" ∈ stack.reverse := helems ▸ List.mem_singleton.mpr rfl
          exact settled.ne_empty (List.mem_reverse.mp hmem) rfl
        rw [if_neg hne]
        have hrelative : startsWith (String.intercalate "/" stack.reverse) "/" = false := by
          cases hslash : startsWith (String.intercalate "/" stack.reverse) "/" with
          | false => rfl
          | true =>
              obtain ⟨rest, hrest⟩ := exists_of_startsWith_slash hslash
              exact absurd hrest (hfree rest)
        refine ⟨hrelative, ?_⟩
        rw [place, hrelative, helems]
        exact (hrooted ▸ settled).foldl_reverse

theorem joinPath_cons {a : String} (h : a ≠ "") (elems : List String) :
    joinPath (a :: elems) = cleanPath (String.intercalate "/" (a :: elems)) := by
  have hdrop : (a :: elems).dropWhile (· = "") = a :: elems := by
    rw [List.dropWhile_cons_of_neg]
    simpa using h
  rw [joinPath, hdrop]

/-- Joining continues the walk of the first part. -/
theorem join_leads {a : String} (h : a ≠ "") (b : String) :
    startsWith (cleanPath (a ++ "/" ++ b)) "/" = startsWith a "/" ∧
      place (cleanPath (a ++ "/" ++ b)) =
        (pathElements b).foldl (LogReader.cleanElement (startsWith a "/")) (place a) := by
  have hrooted : startsWith (a ++ "/" ++ b) "/" = startsWith a "/" := by
    rw [String.append_assoc]
    exact startsWith_append h _
  obtain ⟨hstarts, hplace⟩ := clean_leads (a ++ "/" ++ b)
  refine ⟨hstarts.trans hrooted, ?_⟩
  rw [hplace, place, hrooted, pathElements_append, List.foldl_append]
  rfl

theorem joinPath_pair {a : String} (h : a ≠ "") (b : String) :
    joinPath [a, b] = cleanPath (a ++ "/" ++ b) := by
  rw [joinPath_cons h]
  rfl

theorem joinPath_triple {a : String} (h : a ≠ "") (b c : String) :
    joinPath [a, b, c] = cleanPath (a ++ "/" ++ (b ++ "/" ++ c)) := by
  rw [joinPath_cons h, String.intercalate_cons_cons, String.intercalate_cons_cons,
    String.intercalate_singleton]

theorem cleanPath_ne_empty (path : String) : cleanPath path ≠ "" := by
  rw [cleanPath_eq]
  cases startsWith path "/" with
  | true =>
      intro h
      have := startsWith_slash (String.intercalate "/" (place path).reverse)
      simp only [if_true] at h
      rw [h] at this
      exact absurd this (by decide)
  | false =>
      simp only [Bool.false_eq_true, if_false]
      split
      · decide
      next hbody => exact hbody

end NestGateway.LogReader
