import LinkedDocs.Collection.References
import LinkedDocs.Proofs.Store.Performing

namespace LinkedDocs

/-- A number of documents to skip, and the number of documents to read after them. -/
structure Page where
  skip : Nat
  room : Nat
deriving DecidableEq, Repr

def Page.slice {α : Type} (page : Page) (items : List α) : List α :=
  (items.drop page.skip).take page.room

/-- The pages of a collection of some length, from the first document that was not scanned yet on.
There is always room up to the limit for the pages that are read. -/
inductive Pages (limit : Option Nat) (length : Nat) : Nat → List Page → Prop
  | limited {scanned : Nat} (hlimit : limit = some scanned) : Pages limit length scanned []
  | last {scanned room : Nat} (hroom : ∀ bound ∈ limit, scanned + room ≤ bound)
      (hshort : length - scanned < room) : Pages limit length scanned [⟨scanned, room⟩]
  | full {scanned room : Nat} {pages : List Page}
      (hroom : ∀ bound ∈ limit, scanned + room ≤ bound) (hfull : room ≤ length - scanned)
      (hpages : Pages limit length (scanned + room) pages) :
      Pages limit length scanned (⟨scanned, room⟩ :: pages)

namespace Pages

variable {limit : Option Nat} {length scanned : Nat} {pages : List Page}

theorem withinLimit (h : Pages limit length scanned pages) :
    ∀ page ∈ pages, ∀ bound ∈ limit, page.skip + page.room ≤ bound := by
  induction h with
  | limited => simp
  | last hroom => simpa using hroom
  | full hroom _ _ ih => exact List.forall_mem_cons.2 ⟨hroom, ih⟩

/-- The pages hold what there is from the scanned documents up to the limit, in order. -/
theorem flatMap_slice (h : Pages limit length scanned pages) {α : Type} {items : List α}
    (hlength : items.length = length) :
    pages.flatMap (fun page => page.slice items) =
      Store.inRoom (limit.map (· - scanned)) (items.drop scanned) := by
  induction h with
  | limited hlimit => simp [hlimit, Store.inRoom]
  | @last scanned room hroom hshort =>
    have hdrop : (items.drop scanned).length = length - scanned := by
      rw [List.length_drop, hlength]
    have hpage : (items.drop scanned).take room = items.drop scanned :=
      List.take_of_length_le (by omega)
    rw [List.flatMap_singleton, Page.slice, hpage]
    cases limit with
    | none => rfl
    | some bound =>
      have hbound := hroom bound rfl
      have hrest : (items.drop scanned).length ≤ bound - scanned := by omega
      exact (List.take_of_length_le hrest).symm
  | @full scanned room pages hroom hfull _ ih =>
    rw [List.flatMap_cons, ih, Page.slice]
    cases limit with
    | none =>
      rw [← List.drop_drop]
      exact List.take_append_drop room _
    | some bound =>
      have hbound := hroom bound rfl
      have hsplit : bound - scanned = room + (bound - (scanned + room)) := by omega
      simp only [Option.map_some, Store.inRoom, hsplit, List.take_add, List.drop_drop]

theorem flatMap_slice_zero (h : Pages limit length 0 pages) {α : Type} {items : List α}
    (hlength : items.length = length) :
    pages.flatMap (fun page => page.slice items) = Store.inRoom limit items := by
  rw [h.flatMap_slice hlength]
  cases limit <;> rfl

end Pages

/-- The page of a collection that a call reads. -/
def StoreCall.page? (collection : String) (call : StoreCall) : Option Page :=
  match call.request with
  | .find (.object []) options =>
    if call.collection = collection then options.limit.map (⟨options.skip, ·⟩) else none
  | _ => none

/-- Pages of a collection of some length that never reach past a limit, so what is left of the limit
before and after each of them is not negative, and that hold the positions of the documents from the
first one up to the limit, each of them once and in order. -/
structure ScansOnce (limit : Option Nat) (length : Nat) (pages : List Page) : Prop where
  withinLimit : ∀ page ∈ pages, ∀ bound ∈ limit, page.skip + page.room ≤ bound
  positions : pages.flatMap (fun page => page.slice (List.range length)) =
    Store.inRoom limit (List.range length)

theorem Pages.scansOnce {limit : Option Nat} {length : Nat} {pages : List Page}
    (h : Pages limit length 0 pages) : ScansOnce limit length pages where
  withinLimit := h.withinLimit
  positions := h.flatMap_slice_zero List.length_range

/-- The room for a page of some size after the documents that were scanned. -/
def pageRoom (options : ScanOptions) (scanned : Nat) : Nat :=
  match options.limit with
  | some limit => min (max options.batchSize 1) (limit - scanned)
  | none => max options.batchSize 1

theorem limit_of_pageRoom_eq_zero {options : ScanOptions} {scanned : Nat}
    (hscanned : ∀ bound ∈ options.limit, scanned ≤ bound) (h : pageRoom options scanned = 0) :
    options.limit = some scanned := by
  unfold pageRoom at h
  split at h
  case h_1 limit hlimit =>
    have hbound := hscanned limit hlimit
    rw [hlimit, Option.some.injEq]
    omega
  case h_2 => omega

theorem add_pageRoom_le {options : ScanOptions} {scanned : Nat}
    (hscanned : ∀ bound ∈ options.limit, scanned ≤ bound) :
    ∀ bound ∈ options.limit, scanned + pageRoom options scanned ≤ bound := by
  intro bound hbound
  have hle := hscanned bound hbound
  rw [pageRoom, Option.mem_def.1 hbound]
  dsimp only
  omega

namespace Collection

variable {session : Session}

/-- The call that reads a page of projected documents. -/
def pageCall (collection : Collection) (projection : List String) (page : Page) : StoreCall :=
  ⟨collection.name, .find (.object [])
    { skip := page.skip, limit := some page.room, projection := some projection }⟩

theorem filterMap_page?_pageCall (collection : Collection) (projection : List String)
    (pages : List Page) (other : String) :
    (pages.map (collection.pageCall projection)).filterMap (StoreCall.page? other) =
      if collection.name = other then pages else [] := by
  induction pages with
  | nil => simp
  | cons page pages ih =>
    rw [List.map_cons, List.filterMap_cons, ih]
    by_cases heq : collection.name = other <;> simp [StoreCall.page?, pageCall, heq]

variable [Platform]

theorem find_page (session : Session) (collection : Collection) (projection : List String)
    (page : Page) :
    session.store.find collection.name (.object [])
        { skip := page.skip, limit := some page.room, projection := some projection } =
      .ok ((page.slice (session.store.documents collection.name)).map
        (Projection.project projection)) := by
  have hevaluates : Filter.Evaluates (session.store.documents collection.name) (.object []) :=
    fun document _ => ⟨true, rfl⟩
  have hmatching : Filter.matching (session.store.documents collection.name) (.object []) =
      session.store.documents collection.name :=
    List.filter_eq_self.2 fun _ _ => rfl
  have hall : session.store.find collection.name (.object []) =
      .ok (session.store.documents collection.name) := by
    rw [Store.find_matching hevaluates, hmatching]
  exact Store.find_eq_ok hall _

theorem scanPages_succ (collection : Collection) (options : ScanOptions) (projection : List String)
    (fuel scanned : Nat) :
    collection.scanPages options projection (fuel + 1) scanned =
      if pageRoom options scanned = 0 then pure []
      else (do
        let page ← Access.find collection.name (.object [])
          { skip := scanned, limit := some (pageRoom options scanned),
            projection := some projection }
        if page.length < pageRoom options scanned then pure page
        else (do
          let others ← scanPages collection options projection fuel (scanned + page.length)
          pure (page ++ others))) :=
  rfl

/-- With fuel for each document that is left, the scan reads page after page up to the end. -/
theorem exists_pages_of_scanPages (hrefused : session.refused.contains .find = false)
    (collection : Collection) (options : ScanOptions) (projection : List String) (fuel scanned : Nat)
    (hfuel : (session.store.documents collection.name).length - scanned < fuel)
    (hscanned : ∀ bound ∈ options.limit, scanned ≤ bound) :
    ∃ pages, Pages options.limit (session.store.documents collection.name).length scanned pages ∧
      (collection.scanPages options projection fuel scanned).Performs session
        (pages.map (collection.pageCall projection))
        ((pages.flatMap fun page => page.slice (session.store.documents collection.name)).map
          (Projection.project projection)) := by
  induction fuel generalizing scanned with
  | zero => omega
  | succ fuel ih =>
    rw [scanPages_succ]
    by_cases hzero : pageRoom options scanned = 0
    · rw [if_pos hzero]
      exact ⟨[], .limited (limit_of_pageRoom_eq_zero hscanned hzero), Access.performs_pure []⟩
    rw [if_neg hzero]
    have hroom := add_pageRoom_le hscanned
    generalize pageRoom options scanned = room at hzero hroom ⊢
    have hfind := Access.performs_find hrefused (find_page session collection projection
      ⟨scanned, room⟩)
    have hlength : (((⟨scanned, room⟩ : Page).slice (session.store.documents collection.name)).map
        (Projection.project projection)).length =
          min room ((session.store.documents collection.name).length - scanned) := by
      rw [List.length_map, Page.slice, List.length_take, List.length_drop]
    by_cases hshort : (session.store.documents collection.name).length - scanned < room
    · refine ⟨_, .last hroom hshort, hfind.bind ?_⟩
      rw [if_pos (by omega), List.flatMap_singleton]
      exact Access.performs_pure _
    · obtain ⟨pages, hpages, hperforms⟩ := ih (scanned + room) (by omega) hroom
      refine ⟨_, .full hroom (by omega) hpages, hfind.bind ?_⟩
      have hnext : scanned + min room ((session.store.documents collection.name).length - scanned) =
          scanned + room := by omega
      rw [if_neg (by omega), hlength, hnext, List.flatMap_cons, List.map_append]
      exact hperforms.map _

/-- The scan reads each of the first documents once, up to the limit. -/
theorem exists_scan (hrefused : session.refused.contains .find = false) (collection : Collection)
    (options : ScanOptions) (projection : List String) :
    ∃ pages, ScansOnce options.limit (session.store.documents collection.name).length pages ∧
      (collection.scanPages options projection
        ((session.store.documents collection.name).length + 1) 0).Performs session
          (pages.map (collection.pageCall projection))
          ((Store.inRoom options.limit (session.store.documents collection.name)).map
            (Projection.project projection)) := by
  obtain ⟨pages, hpages, hscan⟩ := exists_pages_of_scanPages hrefused collection options projection
    _ 0 (Nat.lt_succ_self _) fun _ _ => Nat.zero_le _
  rw [hpages.flatMap_slice_zero rfl] at hscan
  exact ⟨pages, hpages.scansOnce, hscan⟩

end Collection

end LinkedDocs
