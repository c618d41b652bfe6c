import OpenJobSpec.Grpc.Paging
import Mathlib.Data.List.Perm.Subperm

/-! # What is collected from a backend that pages by cursor

A response is a page of a server of cursors: it holds an array of items, and a
cursor that is not empty says where the next page begins. The loops keep to that
server, so what they collect is a part of the list that it hands out.
-/
namespace OpenJobSpec.Grpc
open CursorPaging ExceptRules

/-- A total that the loop can read, or none. -/
def totalReadable (reader : TextReader) (response : Fields) : Bool :=
  match response.lookup "total_count" with
  | some (.str text) => (reader.int text).isSome
  | _ => true

def nextPage (response : Fields) : Option String :=
  if rawNext response = "" then none else some (rawNext response)

theorem nextPage_eq_some {response : Fields} {cursor : String}
    (h : nextPage response = some cursor) :
    rawNext response ≠ "" ∧ rawNext response = cursor := by
  unfold nextPage at h
  split at h
  next => cases h
  next hne => exact ⟨hne, Option.some.inj h⟩

/-- A response with an array of items, which passes the caller's own check. -/
def pageOf (accepts : Fields → Bool) (itemsKey : String) (response : Fields) :
    Option (Page String Json) :=
  match Fields.get response itemsKey (.array []) with
  | .array items => if accepts response then some ⟨items, nextPage response⟩ else none
  | _ => none

variable {σ : Type}

/-- The backend behind a fetch, where the empty cursor stands for the beginning. -/
def backend (accepts : Fields → Bool) (itemsKey : String)
    (fetchPage : σ → ℕ → String → Except Raised Fields × σ) : Server σ String Json :=
  fun s requested cursor =>
    match fetchPage s requested (cursor.getD "") with
    | (.ok response, after) => (pageOf accepts itemsKey response).map (·, after)
    | (.error _, _) => none

variable {accepts : Fields → Bool} {itemsKey : String} {reader : TextReader}
variable {fetchPage : σ → ℕ → String → Except Raised Fields × σ}

theorem backend_eq_some {s after : σ} {requested : ℕ} {cursor : Option String}
    {page : Page String Json}
    (h : backend accepts itemsKey fetchPage s requested cursor = some (page, after)) :
    ∃ response, fetchPage s requested (cursor.getD "") = (.ok response, after) ∧
      Fields.get response itemsKey (.array []) = .array page.items ∧
      accepts response = true ∧ page.next = nextPage response := by
  unfold backend at h
  rcases hfetch : fetchPage s requested (cursor.getD "") with ⟨raised | response, after'⟩
  · rw [hfetch] at h
    cases h
  · rw [hfetch] at h
    unfold pageOf at h
    dsimp only at h
    split at h
    next items hitems =>
      split at h
      next haccepts =>
        cases h
        exact ⟨response, rfl, hitems, haccepts, rfl⟩
      next => cases h
    next => cases h

theorem rawTotal_ok {response : Fields} (h : totalReadable reader response = true) (total : ℤ) :
    ∃ read, rawTotal reader total response = .ok read := by
  unfold rawTotal Fields.get
  unfold totalReadable at h
  rcases hfield : response.lookup "total_count" with _ | (_ | _ | _ | _ | text | _ | _)
  case some.str =>
    rw [hfield] at h
    obtain ⟨n, hn⟩ := Option.isSome_iff_exists.mp h
    exact ⟨n, by simp [hn]⟩
  all_goals exact ⟨_, rfl⟩

/-! ## One page -/

/-- The state after a page that leaves the loop going. -/
def Collecting.after (c : Collecting) (limit : ℕ) (items : List Json) (cursor : String)
    (total : ℤ) : Collecting where
  remainingSkip := c.remainingSkip - items.length
  collected := c.collected ++ window c.remainingSkip (limit - c.collected.length) items
  cursor := cursor
  nextCursor := cursor
  total := total
  seenCursors := cursor :: c.seenCursors

/-- What is left to skip and to collect goes down by the items of a page. -/
theorem Collecting.after_left {c : Collecting} {limit : ℕ} {items : List Json}
    (hshort : c.collected.length < limit)
    (hitems : items.length < c.remainingSkip + (limit - c.collected.length)) (cursor : String)
    (total : ℤ) :
    let next := c.after limit items cursor total
    next.collected.length < limit ∧
      next.remainingSkip + (limit - next.collected.length) =
        c.remainingSkip + (limit - c.collected.length) - items.length := by
  dsimp only [Collecting.after]
  rw [List.length_append, window_of_length_le hitems.le, List.length_drop]
  omega

theorem collectPage_eq (limit : ℕ) (c : Collecting) {response : Fields} {items : List Json}
    (hitems : Fields.get response itemsKey (.array []) = .array items)
    (htotal : totalReadable reader response = true) :
    ∃ total, collectPage reader itemsKey limit c response =
      (let next := c.after limit items (rawNext response) total
      if limit ≤ next.collected.length ∨ rawNext response = "" then
        .ok (.done ⟨next.collected, total, rawNext response⟩)
      else if rawNext response ∈ c.seenCursors then .error repeatedCursor
      else .ok (.again next)) := by
  obtain ⟨total, hread⟩ := rawTotal_ok htotal c.total
  have hskip : c.remainingSkip - min c.remainingSkip items.length =
      c.remainingSkip - items.length := by omega
  have hdrop : items.drop (min c.remainingSkip items.length) = items.drop c.remainingSkip := by
    rcases Nat.le_total c.remainingSkip items.length with hle | hle
    · rw [Nat.min_eq_left hle]
    · rw [Nat.min_eq_right hle, List.drop_length, List.drop_of_length_le hle]
  refine ⟨total, ?_⟩
  unfold collectPage rawItems
  rw [hitems, ok_bind, hread, ok_bind]
  dsimp only
  rw [hskip, hdrop]
  rfl

/-- A page that leaves the loop going names a new cursor. -/
theorem collectPage_again {limit : ℕ} {c c' : Collecting} {response : Fields}
    (h : collectPage reader itemsKey limit c response = .ok (.again c')) :
    c'.seenCursors = rawNext response :: c.seenCursors ∧ rawNext response ∉ c.seenCursors := by
  obtain ⟨items, _, h⟩ := bind_eq_ok.mp h
  obtain ⟨total, _, h⟩ := bind_eq_ok.mp h
  dsimp only at h
  split at h
  next => cases h
  next =>
    split at h
    next => cases h
    next hfresh =>
      cases h
      exact ⟨rfl, hfresh⟩

/-! ## The loop -/

theorem collectLoop_step {s after : σ} {limit fuel : ℕ} {c : Collecting} {response : Fields}
    (hshort : c.collected.length < limit)
    (hfetch : fetchPage s (c.remainingSkip + (limit - c.collected.length)) c.cursor =
      (.ok response, after)) :
    collectLoop reader fetchPage itemsKey limit (fuel + 1) c s =
      proceed (collectLoop reader fetchPage itemsKey limit fuel) after
        (collectPage reader itemsKey limit c response) := by
  rw [collectLoop, if_neg (Nat.not_le.mpr hshort)]
  dsimp only
  rw [hfetch]

/-- What a finished loop has collected of the items it was served, and where its cursor leads. -/
structure Collected (server : Server σ String Json) (served : List Json) (c : Collecting)
    (limit : ℕ) (page : OffsetPage) (s : σ) : Prop where
  items : page.items = c.collected ++ window c.remainingSkip (limit - c.collected.length) served
  resumes : page.nextCursor ≠ "" → ∃ seen, Serves server s (some page.nextCursor) seen
    (served.drop (c.remainingSkip + (limit - c.collected.length)))

theorem collectLoop_serves {s : σ} {cursor : Option String} {seen : List String}
    {served : List Json}
    (h : Serves (backend (totalReadable reader) itemsKey fetchPage) s cursor seen served)
    {limit : ℕ} (c : Collecting) (hseen : c.seenCursors = seen)
    (hcursor : c.cursor = cursor.getD "") (hshort : c.collected.length < limit) :
    ∃ pages page after,
      (∀ fuel, pages ≤ fuel →
        collectLoop reader fetchPage itemsKey limit fuel c s = some (.ok page, after)) ∧
      Collected (backend (totalReadable reader) itemsKey fetchPage) served c limit page after := by
  induction h generalizing c with
  | @page s cursor seen served page after rest hserve hsize hitems hlast hfresh hnext ih =>
    let need := limit - c.collected.length
    let n := c.remainingSkip + need
    have hneed : 0 < need := Nat.sub_pos_of_lt hshort
    have hn : 0 < n := Nat.add_pos_right _ hneed
    obtain ⟨response, hfetch, hraw, htotal, hpage⟩ := backend_eq_some (hserve n hn)
    rw [← hcursor] at hfetch
    obtain ⟨total, hturn⟩ := collectPage_eq limit c hraw htotal
    have hlength : (window c.remainingSkip need (page n).items).length =
        ((page n).items.drop c.remainingSkip).length :=
      congrArg List.length (window_of_length_le (hsize n hn))
    have hwindow := window_append c.remainingSkip need (page n).items (rest n)
    rw [← hitems n hn] at hwindow
    let next := c.after limit (page n).items (rawNext response) total
    have hcollected : next.collected = c.collected ++ window c.remainingSkip need (page n).items :=
      rfl
    have hdone (hend : limit ≤ next.collected.length ∨ rawNext response = "") (fuel : ℕ)
        (hfuel : 1 ≤ fuel) : collectLoop reader fetchPage itemsKey limit fuel c s =
          some (.ok ⟨next.collected, total, rawNext response⟩, after n) := by
      obtain ⟨fuel, rfl⟩ := Nat.exists_eq_add_of_le' hfuel
      rw [collectLoop_step hshort hfetch, hturn]
      dsimp only
      rw [if_pos hend]
      rfl
    by_cases hempty : rawNext response = ""
    · -- The last page: there is nothing after it.
      have hrest : rest n = [] := hlast n hn (hpage.trans (if_pos hempty))
      refine ⟨1, _, _, hdone (.inr hempty), ?_, fun hne => absurd hempty hne⟩
      rw [hcollected, hwindow, hrest, window, window, List.drop_nil, List.take_nil,
        List.append_nil]
    have hcursor' : (page n).next = some (rawNext response) := hpage.trans (if_neg hempty)
    by_cases hfull : limit ≤ next.collected.length
    · -- The limit is reached, with the end of the page since no page is larger than asked for.
      have hfilled : need ≤ ((page n).items.drop c.remainingSkip).length := by
        rw [hcollected, List.length_append, hlength] at hfull
        omega
      refine ⟨1, _, _, hdone (.inl hfull), ?_, fun _ => ⟨rawNext response :: seen, ?_⟩⟩
      · rw [hcollected, hwindow, Nat.sub_eq_zero_of_le hfilled, window, window, List.take_zero,
          List.append_nil]
      · rw [hitems n hn, drop_of_filled (rest n) (hsize n hn) hneed hfilled]
        exact hnext n _ hn hcursor'
    · -- The loop goes on with what is left to skip and to collect.
      have hpart : (page n).items.length < n := by
        rw [hcollected, List.length_append, hlength, List.length_drop] at hfull
        have hle := hsize n hn
        omega
      obtain ⟨hlong, hneed'⟩ := c.after_left hshort hpart (rawNext response) total
      have hleft : limit - next.collected.length =
          need - ((page n).items.drop c.remainingSkip).length := by
        rw [hcollected, List.length_append, hlength]
        omega
      have hseen' : rawNext response ∉ c.seenCursors := hseen ▸ hfresh n _ hn hcursor'
      obtain ⟨pages, result, final, hrun, hresult⟩ := ih n _ hn hcursor' next
        (congrArg (rawNext response :: ·) hseen) rfl hlong
      refine ⟨pages + 1, result, final, fun fuel hfuel => ?_, ?_, ?_⟩
      · obtain ⟨fuel, rfl⟩ := Nat.exists_eq_add_of_le' (Nat.le_of_add_left_le hfuel)
        rw [collectLoop_step hshort hfetch, hturn]
        dsimp only
        rw [if_neg (not_or.mpr ⟨hfull, hempty⟩), if_neg hseen']
        exact hrun fuel (Nat.le_of_succ_le_succ hfuel)
      · rw [hresult.items, hleft, hcollected, hwindow, List.append_assoc]
        rfl
      · intro hne
        obtain ⟨later, hlater⟩ := hresult.resumes hne
        refine ⟨later, ?_⟩
        have hdrop : served.drop n = (rest n).drop (n - (page n).items.length) := by
          rw [hitems n hn, List.drop_append, List.drop_of_length_le (hsize n hn), List.nil_append]
        change Serves _ final _ later (served.drop n)
        rw [hdrop, ← hneed']
        exact hlater

/-- A cursor that comes again ends the loop, before the limit is reached. -/
theorem collectLoop_repeats {s : σ} {cursor : Option String} {seen : List String} {need : ℕ}
    (h : Repeats (backend (totalReadable reader) itemsKey fetchPage) s cursor seen need)
    {limit : ℕ} (c : Collecting) (hseen : c.seenCursors = seen)
    (hcursor : c.cursor = cursor.getD "") (hshort : c.collected.length < limit)
    (hneed : need = c.remainingSkip + (limit - c.collected.length)) :
    ∃ pages after, ∀ fuel, pages ≤ fuel →
      collectLoop reader fetchPage itemsKey limit fuel c s =
        some (.error (.exception repeatedCursor), after) := by
  induction h generalizing c with
  | @again s after cursor seen need page name hserve hpart hnext hrepeated =>
    obtain ⟨response, hfetch, hraw, htotal, hpage⟩ := backend_eq_some hserve
    rw [← hcursor, hneed] at hfetch
    obtain ⟨total, hturn⟩ := collectPage_eq limit c hraw htotal
    obtain ⟨hempty, hname⟩ := nextPage_eq_some (hpage.symm.trans hnext)
    obtain ⟨hlong, _⟩ := c.after_left hshort (hneed ▸ hpart) (rawNext response) total
    refine ⟨1, after, fun fuel hfuel => ?_⟩
    obtain ⟨fuel, rfl⟩ := Nat.exists_eq_add_of_le' hfuel
    rw [collectLoop_step hshort hfetch, hturn]
    dsimp only
    have hseen' : rawNext response ∈ c.seenCursors := by
      rw [hname, hseen]
      exact hrepeated
    rw [if_neg (not_or.mpr ⟨Nat.not_le.mpr hlong, hempty⟩), if_pos hseen']
    rfl
  | @follow s after cursor seen need page name hserve hpart hnext hfresh _ ih =>
    obtain ⟨response, hfetch, hraw, htotal, hpage⟩ := backend_eq_some hserve
    rw [← hcursor, hneed] at hfetch
    obtain ⟨total, hturn⟩ := collectPage_eq limit c hraw htotal
    obtain ⟨hempty, rfl⟩ := nextPage_eq_some (hpage.symm.trans hnext)
    obtain ⟨hlong, hleft⟩ := c.after_left hshort (hneed ▸ hpart) (rawNext response) total
    obtain ⟨pages, final, hrun⟩ := ih (c.after limit page.items (rawNext response) total)
      (congrArg (rawNext response :: ·) hseen) rfl hlong (hneed ▸ hleft.symm)
    refine ⟨pages + 1, final, fun fuel hfuel => ?_⟩
    obtain ⟨fuel, rfl⟩ := Nat.exists_eq_add_of_le' (Nat.le_of_add_left_le hfuel)
    rw [collectLoop_step hshort hfetch, hturn]
    dsimp only
    rw [if_neg (not_or.mpr ⟨Nat.not_le.mpr hlong, hempty⟩), if_neg (by rw [hseen]; exact hfresh)]
    exact hrun fuel (Nat.le_of_succ_le_succ hfuel)

/-- With so many cursors to name, no more pages are asked for. -/
theorem collectLoop_terminates {cursors : List String} (s : σ) {limit : ℕ}
    (hcursors : ∀ s requested cursor response after,
      fetchPage s requested cursor = (.ok response, after) → rawNext response ∈ cursors)
    (c : Collecting) (hnodup : c.seenCursors.Nodup) (hsub : c.seenCursors ⊆ cursors) (fuel : ℕ)
    (hfuel : cursors.length < c.seenCursors.length + fuel) :
    collectLoop reader fetchPage itemsKey limit fuel c s ≠ none := by
  induction fuel generalizing s c with
  | zero =>
    have hle := (List.subperm_of_subset hnodup hsub).length_le
    omega
  | succ fuel ih =>
    rw [collectLoop]
    split
    next => exact nofun
    next =>
      dsimp only
      split
      next => exact nofun
      next response after hfetch =>
        rcases hturn : collectPage reader itemsKey limit c response with e | (next | page)
        · exact nofun
        · obtain ⟨hseen, hfresh⟩ := collectPage_again hturn
          have hnew : rawNext response ∈ cursors := hcursors _ _ _ _ _ hfetch
          refine ih after next ?_ ?_ ?_
          · rw [hseen]
            exact List.nodup_cons.mpr ⟨hfresh, hnodup⟩
          · rw [hseen]
            exact List.cons_subset.mpr ⟨hnew, hsub⟩
          · rw [hseen, List.length_cons]
            omega
        · exact nofun

/-! ## Listing queues -/

variable {call : σ → Fields → Except Raised Fields × σ}

/-- The backend behind `ListQueues`. -/
def queuesBackend (call : σ → Fields → Except Raised Fields × σ) : Server σ String Json :=
  backend (fun _ => true) "queues" fun s limit cursor => call s (pageRequest limit cursor)

theorem listPage_eq (reader : TextReader) (l : Listing) {response : Fields} {items : List Json}
    (hitems : Fields.get response "queues" (.array []) = .array items) :
    listPage reader l response = (do
      let page ← items.mapM (listedQueue reader)
      if rawNext response = "" then .ok (.done (l.queues ++ page))
      else if rawNext response ∈ l.seenCursors then
        .error (.connection "gRPC queue pagination returned a repeated cursor")
      else
        .ok (.again ⟨l.queues ++ page, rawNext response, rawNext response :: l.seenCursors⟩)) := by
  unfold listPage
  rw [hitems]
  rfl

/-- The queues so far and those of the items that are served after them. -/
def listed (reader : TextReader) (l : Listing) (served : List Json) :
    Except Raised (List Queue) :=
  match served.mapM (listedQueue reader) with
  | .error e => .error (.exception e)
  | .ok queues => .ok (l.queues ++ queues)

theorem listed_append (reader : TextReader) (l : Listing) (page rest : List Json) :
    listed reader l (page ++ rest) =
      match page.mapM (listedQueue reader) with
      | .error e => .error (.exception e)
      | .ok queues => listed reader { l with queues := l.queues ++ queues } rest := by
  unfold listed
  rw [List.mapM_append]
  cases page.mapM (listedQueue reader) with
  | error e => rfl
  | ok queues =>
    rw [ok_bind]
    cases rest.mapM (listedQueue reader) with
    | error e => rfl
    | ok more => exact congrArg Except.ok (List.append_assoc ..).symm

theorem listLoop_serves {s : σ} {cursor : Option String} {seen : List String}
    {served : List Json} (h : Serves (queuesBackend call) s cursor seen served) (l : Listing)
    (hseen : l.seenCursors = seen) (hcursor : l.cursor = cursor.getD "") :
    ∃ pages after, ∀ fuel, pages ≤ fuel →
      listLoop reader call fuel l s = some (listed reader l served, after) := by
  induction h generalizing l with
  | @page s cursor seen served page after rest hserve hsize hitems hlast hfresh hnext ih =>
    obtain ⟨response, hfetch, hraw, _, hpage⟩ := backend_eq_some (hserve 100 (by decide))
    rw [← hcursor] at hfetch
    have hturn := listPage_eq reader l hraw
    have hlisted := listed_append reader l (page 100).items (rest 100)
    rw [← hitems 100 (by decide)] at hlisted
    cases hdecoded : (page 100).items.mapM (listedQueue reader) with
    | error e =>
      rw [hdecoded] at hturn hlisted
      refine ⟨1, after 100, fun fuel hfuel => ?_⟩
      obtain ⟨fuel, rfl⟩ := Nat.exists_eq_add_of_le' hfuel
      rw [listLoop, hfetch, hlisted]
      dsimp only
      rw [hturn]
      rfl
    | ok queues =>
      rw [hdecoded, ok_bind] at hturn
      rw [hdecoded] at hlisted
      by_cases hempty : rawNext response = ""
      · have hrest : rest 100 = [] := hlast 100 (by decide) (hpage.trans (if_pos hempty))
        refine ⟨1, after 100, fun fuel hfuel => ?_⟩
        obtain ⟨fuel, rfl⟩ := Nat.exists_eq_add_of_le' hfuel
        rw [listLoop, hfetch, hlisted, hrest]
        dsimp only
        rw [hturn, if_pos hempty]
        exact congrArg (fun found => some (Except.ok found, after 100))
          (List.append_nil (l.queues ++ queues)).symm
      · have hnamed : (page 100).next = some (rawNext response) := hpage.trans (if_neg hempty)
        have hfresh' : rawNext response ∉ l.seenCursors :=
          hseen ▸ hfresh 100 _ (by decide) hnamed
        obtain ⟨pages, final, hrun⟩ := ih 100 _ (by decide) hnamed
          ⟨l.queues ++ queues, rawNext response, rawNext response :: l.seenCursors⟩
          (congrArg (rawNext response :: ·) hseen) rfl
        refine ⟨pages + 1, final, fun fuel hfuel => ?_⟩
        obtain ⟨fuel, rfl⟩ := Nat.exists_eq_add_of_le' (Nat.le_of_add_left_le hfuel)
        rw [listLoop, hfetch, hlisted]
        dsimp only
        rw [hturn, if_neg hempty, if_neg hfresh']
        exact hrun fuel (Nat.le_of_succ_le_succ hfuel)

/-! ## Offset pages are slices -/

/-- An offset page of what a backend serves is the slice of the whole list, and its cursor leads to
what follows. A cursor that is repeated before the limit is reached is an error, and a backend
with finitely many cursors is asked for finitely many pages. -/
structure PagesAreSlices (reader : TextReader)
    (fetchPage : σ → ℕ → String → Except Raised Fields × σ) (itemsKey : String)
    (limit offset : ℤ) (s : σ) : Prop where
  slice : ∀ served, Serves (backend (totalReadable reader) itemsKey fetchPage) s none [] served →
    ∃ pages page after,
      (∀ fuel, pages ≤ fuel →
        collectOffsetPage reader fetchPage itemsKey limit offset fuel s = some (.ok page, after)) ∧
      sliceOffsetPage served limit offset = .ok ⟨page.items, served.length, ""⟩ ∧
      page.items = (served.drop offset.toNat).take limit.toNat ∧
      (page.nextCursor ≠ "" → ∃ seen,
        Serves (backend (totalReadable reader) itemsKey fetchPage) after (some page.nextCursor) seen
          (served.drop (offset.toNat + limit.toNat)))
  repeats : Repeats (backend (totalReadable reader) itemsKey fetchPage) s none []
      (offset.toNat + limit.toNat) →
    ∃ pages after, ∀ fuel, pages ≤ fuel →
      collectOffsetPage reader fetchPage itemsKey limit offset fuel s =
        some (.error (.exception repeatedCursor), after)
  terminates : ∀ cursors : List String,
    (∀ s requested cursor response after,
      fetchPage s requested cursor = (.ok response, after) → rawNext response ∈ cursors) →
    ∀ fuel, cursors.length < fuel →
      collectOffsetPage reader fetchPage itemsKey limit offset fuel s ≠ none

/-- All the queues that a backend serves are listed, in its order. -/
def QueuesAreListed (reader : TextReader) (call : σ → Fields → Except Raised Fields × σ) (s : σ) :
    Prop :=
  ∀ served, Serves (queuesBackend call) s none [] served →
    ∃ pages after, ∀ fuel, pages ≤ fuel →
      listQueues reader call fuel s = some (listed reader {} served, after)

theorem validatePage_ok {limit offset : ℤ} (hlimit : 1 ≤ limit) (hoffset : 0 ≤ offset) :
    validatePage limit offset = .ok () := by
  rw [validatePage, if_neg (by omega), if_neg (by omega)]

theorem collectOffsetPage_eq {limit offset : ℤ} (hlimit : 1 ≤ limit) (hoffset : 0 ≤ offset)
    (fuel : ℕ) (s : σ) :
    collectOffsetPage reader fetchPage itemsKey limit offset fuel s =
      collectLoop reader fetchPage itemsKey limit.toNat fuel
        { remainingSkip := offset.toNat } s := by
  rw [collectOffsetPage, validatePage_ok hlimit hoffset]

theorem cursor_pages_are_slices (reader : TextReader)
    (fetchPage : σ → ℕ → String → Except Raised Fields × σ) (itemsKey : String)
    (call : σ → Fields → Except Raised Fields × σ) {limit offset : ℤ} (hlimit : 1 ≤ limit)
    (hoffset : 0 ≤ offset) (s : σ) :
    PagesAreSlices reader fetchPage itemsKey limit offset s ∧ QueuesAreListed reader call s := by
  have hpositive : 0 < limit.toNat := by omega
  refine ⟨⟨fun served hserved => ?_, fun hrepeats => ?_, fun cursors hcursors fuel hfuel => ?_⟩,
    fun served hserved => listLoop_serves hserved {} rfl rfl⟩
  · obtain ⟨pages, page, after, hrun, hitems, hresumes⟩ :=
      collectLoop_serves hserved { remainingSkip := offset.toNat } rfl rfl hpositive
    rw [List.length_nil, Nat.sub_zero] at hitems hresumes
    refine ⟨pages, page, after, fun fuel hfuel => ?_, ?_, hitems, hresumes⟩
    · rw [collectOffsetPage_eq hlimit hoffset]
      exact hrun fuel hfuel
    · rw [sliceOffsetPage, validatePage_ok hlimit hoffset, ok_bind, hitems]
      rfl
  · obtain ⟨pages, after, hrun⟩ :=
      collectLoop_repeats hrepeats { remainingSkip := offset.toNat } rfl rfl hpositive rfl
    refine ⟨pages, after, fun fuel hfuel => ?_⟩
    rw [collectOffsetPage_eq hlimit hoffset]
    exact hrun fuel hfuel
  · rw [collectOffsetPage_eq hlimit hoffset]
    refine collectLoop_terminates s hcursors _ List.nodup_nil (List.nil_subset _) fuel ?_
    rwa [List.length_nil, Nat.zero_add]

/-- Two jobs, one on each page. -/
def twoPages (s : Unit) (_ : ℕ) (cursor : String) : Except Raised Fields × Unit :=
  if cursor = "" then
    (.ok [("jobs", .array [.str "job-0"]), ("next_cursor", .str "cursor-1")], s)
  else (.ok [("jobs", .array [.str "job-1"])], s)

theorem twoPages_serves (reader : TextReader) :
    Serves (backend (totalReadable reader) "jobs" twoPages) () none []
      [.str "job-0", .str "job-1"] := by
  refine .page (fun _ => ⟨[.str "job-0"], some "cursor-1"⟩) (fun _ => ()) (fun _ => [.str "job-1"])
    (fun _ _ => rfl) (fun _ hn => hn) (fun _ _ => rfl) (fun _ _ h => by cases h)
    (fun _ _ _ _ => List.not_mem_nil) fun _ _ _ h => ?_
  cases h
  exact .page (fun _ => ⟨[.str "job-1"], none⟩) (fun _ => ()) (fun _ => [])
    (fun _ _ => rfl) (fun _ hn => hn) (fun _ _ => rfl) (fun _ _ _ => rfl)
    (fun _ _ _ h => by cases h) (fun _ _ _ h => by cases h)

theorem twoPages_sliced :
    ∃ pages page after,
      collectOffsetPage refusingReader twoPages "jobs" 1 1 pages () = some (.ok page, after) ∧
        page.items = [.str "job-1"] := by
  obtain ⟨pages, page, after, hrun, _, hitems, _⟩ :=
    (cursor_pages_are_slices refusingReader twoPages "jobs" (fun s _ => (.ok [], s))
      (by decide : (1 : ℤ) ≤ 1) (by decide : (0 : ℤ) ≤ 1) ()).1.slice _
      (twoPages_serves refusingReader)
  exact ⟨pages, page, after, hrun pages le_rfl, hitems⟩

end OpenJobSpec.Grpc
