import LinkedDocs.Collection.Selection
import LinkedDocs.Proofs.Store.Reading

namespace LinkedDocs

open Access

variable [Platform]

/-- A property of computations that passes on to whatever is made of finds: it is kept by sequencing
and holds where a query cannot be used. -/
structure Access.ClosedUnderFinds (holds : (α : Type) → Access α → Prop) : Prop where
  pure {α : Type} (value : α) : holds α (pure value)
  bind {α β : Type} {access : Access α} {next : α → Access β} (haccess : holds α access)
    (hnext : ∀ value, holds β (next value)) : holds β (access >>= next)
  find (collection : String) (filter : Json) (options : FindOptions) :
    holds (List Json) (find collection filter options)
  invalidQuery {α : Type} (collection : String) (fault : InvalidQueryFault) :
    holds α (throw (.invalidQuery collection fault))

namespace Collection

section Closed

variable {holds : (α : Type) → Access α → Prop} (closed : ClosedUnderFinds holds)
include closed

theorem closed_storedKeys (collection : Collection) (filter : Json) (limit : Option Nat) :
    holds _ (collection.storedKeys filter limit) :=
  closed.bind (closed.find _ _ _) fun _ => closed.pure _

mutual

theorem closed_normalizeAt (collection : Collection) (stack : Stack) (filter : Json) :
    holds _ (normalizeAt collection stack filter) := by
  cases filter with
  | object fields =>
    unfold normalizeAt
    split
    · exact closed.bind (closed_keySetFields _ _ fields) fun _ => closed.pure _
    · exact closed.bind (closed_normalizeFields _ _ fields) fun _ => closed.pure _
  | array items =>
    unfold normalizeAt
    exact closed.bind (closed_normalizeItems _ _ _ items) fun _ => closed.pure _
  | null => exact closed.pure _
  | bool _ => exact closed.pure _
  | number _ => exact closed.pure _
  | string _ => exact closed.pure _
termination_by structural filter

theorem closed_normalizeItems (collection : Collection) (stack : Stack) (position : Nat)
    (items : List Json) : holds _ (normalizeItems collection stack position items) := by
  cases items with
  | nil => exact closed.pure _
  | cons item rest =>
    unfold normalizeItems
    exact closed.bind (closed_normalizeAt _ _ item) fun _ =>
      closed.bind (closed_normalizeItems _ _ _ rest) fun _ => closed.pure _
termination_by structural items

theorem closed_normalizeFields (collection : Collection) (stack : Stack)
    (fields : List (String × Json)) : holds _ (normalizeFields collection stack fields) := by
  cases fields with
  | nil => exact closed.pure _
  | cons field rest =>
    obtain ⟨name, value⟩ := field
    unfold normalizeFields
    exact closed.bind (closed_normalizeAt _ _ value) fun _ =>
      closed.bind (closed_normalizeFields _ _ rest) fun _ => closed.pure _
termination_by structural fields

theorem closed_keySetFields (collection target : Collection) (fields : List (String × Json)) :
    holds _ (keySetFields collection target fields) := by
  cases fields with
  | nil => exact closed.pure _
  | cons field rest =>
    obtain ⟨name, argument⟩ := field
    have hrest := closed_keySetFields collection target rest
    have hkeys (filter : Json) := closed_storedKeys closed target filter none
    unfold keySetFields
    dsimp only
    split
    · exact closed.bind (closed.pure _) fun _ => closed.bind hrest fun _ => closed.pure _
    · split
      · split
        · exact closed.bind (closed.pure _) fun _ => closed.bind (hkeys _) fun _ =>
            closed.bind (closed.pure _) fun _ => closed.bind hrest fun _ => closed.pure _
        · exact closed.bind (closed_normalizeAt _ _ argument) fun _ =>
            closed.bind (hkeys _) fun _ =>
            closed.bind (closed.pure _) fun _ => closed.bind hrest fun _ => closed.pure _
      · exact closed.bind (closed_keySet _ _ _ argument) fun _ =>
          closed.bind hrest fun _ => closed.pure _
termination_by structural fields

theorem closed_keySet (collection target : Collection) (operator : Operator) (argument : Json) :
    holds _ (keySet collection target operator argument) := by
  cases argument with
  | array items =>
    unfold keySet
    exact closed.bind (closed_keySetItems _ items) fun _ => closed.pure _
  | _ => exact closed.invalidQuery _ _
termination_by structural argument

theorem closed_keySetItems (target : Collection) (items : List Json) :
    holds _ (keySetItems target items) := by
  cases items with
  | nil => exact closed.pure _
  | cons item rest =>
    have hrest := closed_keySetItems target rest
    have hkeys (filter : Json) := closed_storedKeys closed target filter none
    unfold keySetItems
    dsimp only
    split
    · split
      · exact closed.bind (closed.pure _) fun _ => closed.bind (hkeys _) fun _ =>
          closed.bind hrest fun _ => closed.pure _
      · exact closed.bind (closed_normalizeAt _ _ item) fun _ => closed.bind (hkeys _) fun _ =>
          closed.bind hrest fun _ => closed.pure _
    · exact closed.bind (closed.pure _) fun _ => closed.bind hrest fun _ => closed.pure _
termination_by structural items

end

theorem closed_normalize (collection : Collection) (filter : Json) :
    holds _ (collection.normalize filter) := by
  unfold normalize
  split
  · exact closed.pure _
  · exact closed_normalizeAt closed _ _ _

end Closed

theorem closedUnderFinds_reads : ClosedUnderFinds fun _ access => access.Reads where
  pure := .pure
  bind := .bind
  find := .find
  invalidQuery _ _ := .throw _

theorem reads_storedKeys (collection : Collection) (filter : Json) (limit : Option Nat) :
    (collection.storedKeys filter limit).Reads :=
  closed_storedKeys closedUnderFinds_reads _ _ _

theorem reads_normalizeAt (collection : Collection) (stack : Stack) (filter : Json) :
    (normalizeAt collection stack filter).Reads :=
  closed_normalizeAt closedUnderFinds_reads _ _ _

theorem reads_normalizeItems (collection : Collection) (stack : Stack) (position : Nat)
    (items : List Json) : (normalizeItems collection stack position items).Reads :=
  closed_normalizeItems closedUnderFinds_reads _ _ _ _

theorem reads_normalizeFields (collection : Collection) (stack : Stack)
    (fields : List (String × Json)) : (normalizeFields collection stack fields).Reads :=
  closed_normalizeFields closedUnderFinds_reads _ _ _

theorem reads_keySetFields (collection target : Collection) (fields : List (String × Json)) :
    (keySetFields collection target fields).Reads :=
  closed_keySetFields closedUnderFinds_reads _ _ _

theorem reads_keySet (collection target : Collection) (operator : Operator) (argument : Json) :
    (keySet collection target operator argument).Reads :=
  closed_keySet closedUnderFinds_reads _ _ _ _

theorem reads_keySetItems (target : Collection) (items : List Json) :
    (keySetItems target items).Reads :=
  closed_keySetItems closedUnderFinds_reads _ _

theorem reads_normalize (collection : Collection) (filter : Json) :
    (collection.normalize filter).Reads :=
  closed_normalize closedUnderFinds_reads _ _

theorem reads_find (collection : Collection) (filter : Json) (options : FindOptions) :
    (collection.find filter options).Reads :=
  .bind (reads_normalize _ _) fun _ => .find _ _ _

end Collection

namespace LazyDocuments

theorem reads_fetch (documents : LazyDocuments) : documents.fetch.Reads :=
  Collection.reads_find _ _ _

theorem reads_fetchOne (documents : LazyDocuments) (position : Nat) :
    (documents.fetchOne position).Reads :=
  .bind (Collection.reads_find _ _ _) fun _ => .pure _

end LazyDocuments

theorem Subject.reads_read (subject : Subject) : subject.read.Reads := by
  cases subject with
  | value given => exact .pure _
  | documents unread => exact .bind unread.reads_fetch fun _ => .pure _

theorem Place.reads_items (place : Place) (fault : Json → ResolutionFault) (subject : Subject) :
    (place.items fault subject).Reads := by
  refine .bind subject.reads_read fun value => ?_
  cases value with
  | array items => exact .pure _
  | _ => exact .throw _

namespace Resolution

/-- A resolution that only reads, wherever it is used. -/
def Reads (resolution : Resolution) : Prop :=
  ∀ subject place, (resolution subject place).Reads

omit [Platform] in
theorem reads_eachFrom {resolution : Resolution} (hresolution : resolution.Reads) (place : Place)
    (position : Nat) (items : List Json) : (resolution.eachFrom place position items).Reads := by
  induction items generalizing position with
  | nil => exact .pure _
  | cons item rest ih => exact .bind (hresolution _ _) fun _ => .bind (ih _) fun _ => .pure _

omit [Platform] in
mutual

theorem reads_spread {resolution : Json → Place → Access Json}
    (hresolution : ∀ value place, (resolution value place).Reads) (place : Place) (value : Json) :
    (spread resolution place value).Reads := by
  cases value with
  | array items =>
    unfold spread
    exact .bind (reads_spreadItems hresolution _ _ items) fun _ => .pure _
  | _ => exact hresolution _ _
termination_by structural value

theorem reads_spreadItems {resolution : Json → Place → Access Json}
    (hresolution : ∀ value place, (resolution value place).Reads) (place : Place)
    (position : Nat) (items : List Json) :
    (spreadItems resolution place position items).Reads := by
  cases items with
  | nil => exact .pure _
  | cons item rest =>
    unfold spreadItems
    exact .bind (reads_spread hresolution _ item) fun _ =>
      .bind (reads_spreadItems hresolution _ _ rest) fun _ => .pure _
termination_by structural items

end

theorem reads_follow (options : SelectionOptions) (next : Selector) {resolution : Resolution}
    (hresolution : resolution.Reads) (place : Place) (value : Json) :
    (follow options next resolution place value).Reads := by
  unfold follow
  split
  · exact hresolution _ _
  · dsimp only
    split
    · exact .bind (.pure _) fun _ => hresolution _ _
    · exact .bind (.pure _) fun _ => hresolution _ _
    · exact .bind (Collection.reads_find _ _ _) fun _ => .bind (.pure _) fun _ => hresolution _ _

theorem reads_field (options : SelectionOptions) (name : String) (next : Selector)
    {resolution : Resolution} (hresolution : resolution.Reads) (place : Place)
    (fields : List (String × Json)) : (field options name next resolution place fields).Reads := by
  unfold field
  split
  · exact .throw _
  · exact reads_follow _ _ hresolution _ _

theorem reads_fields (options : SelectionOptions) (next : Selector) {resolution : Resolution}
    (hresolution : resolution.Reads) (place : Place) (given : List (String × Json))
    (names : List String) : (fields options next resolution place given names).Reads := by
  induction names with
  | nil => exact .pure _
  | cons name rest ih =>
    exact .bind (reads_field _ _ _ hresolution _ _) fun _ => .bind ih fun _ => .pure _

end Resolution

namespace Selector

open Resolution

mutual

theorem reads_resolve (options : SelectionOptions) (selector : Selector) :
    Resolution.Reads (selector.resolve options) := by
  intro subject place
  cases selector with
  | identity => exact subject.reads_read
  | field name next =>
    unfold resolve
    refine .bind subject.reads_read fun _ => reads_spread (fun value place => ?_) _ _
    split
    · exact reads_field _ _ _ (reads_resolve _ next) _ _
    · exact .throw _
  | index position next =>
    unfold resolve
    dsimp only
    split
    · exact .bind (LazyDocuments.reads_fetchOne _ _) fun _ => reads_resolve _ next _ _
    · exact .bind (.pure _) fun _ => reads_resolve _ next _ _
    · exact .bind (.throw _) fun _ => reads_resolve _ next _ _
  | shortcut next =>
    unfold resolve
    split
    · exact .pure _
    · exact reads_resolve _ next _ _
  | map next =>
    unfold resolve
    exact .bind (Place.reads_items _ _ _) fun _ =>
      .bind (reads_eachFrom (reads_resolve _ next) _ _ _) fun _ => .pure _
  | hardMap next =>
    unfold resolve
    exact .bind (Place.reads_items _ _ _) fun _ =>
      .bind (reads_eachFrom (reads_resolve _ next) _ _ _) fun _ => .pure _
  | filter predicate next =>
    unfold resolve
    exact .bind (Place.reads_items _ _ _) fun _ => reads_resolve _ next _ _
  | switch predicate accepted otherwise =>
    unfold resolve
    refine .bind subject.reads_read fun _ => ?_
    split
    · exact reads_resolve _ accepted _ _
    · exact reads_resolve _ otherwise _ _
  | filterQuery query next =>
    unfold resolve
    split
    · exact reads_resolve _ next _ _
    · exact .throw _
  | tuple items =>
    unfold resolve
    exact .bind (reads_resolveItems _ items _ _) fun _ => .pure _
  | object entries =>
    unfold resolve
    refine .bind subject.reads_read fun _ => reads_spread (fun value place => ?_) _ _
    split
    · exact .bind (reads_resolveEntries _ _ _ _ entries) fun _ => .pure _
    · exact .throw _
termination_by structural selector

theorem reads_resolveItems (options : SelectionOptions) (items : List Selector)
    (subject : Subject) (place : Place) : (resolveItems options items subject place).Reads := by
  cases items with
  | nil => exact .pure _
  | cons item rest =>
    unfold resolveItems
    exact .bind (reads_resolve _ item _ _) fun _ =>
      .bind (reads_resolveItems _ rest _ _) fun _ => .pure _
termination_by structural items

theorem reads_resolveEntries (options : SelectionOptions) (listed : List String)
    (given : List (String × Json)) (place : Place) (entries : List (ObjectKey × Selector)) :
    (resolveEntries options listed given place entries).Reads := by
  cases entries with
  | nil => exact .pure _
  | cons entry rest =>
    obtain ⟨key, next⟩ := entry
    unfold resolveEntries
    exact .bind (reads_fields _ _ (reads_resolve _ next) _ _ _) fun _ =>
      .bind (reads_resolveEntries _ _ _ _ rest) fun _ => .pure _
termination_by structural entries

end

end Selector

end LinkedDocs
