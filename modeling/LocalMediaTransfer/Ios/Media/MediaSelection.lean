import Mathlib.Tactic
import LocalMediaTransfer.Lib.Run
import LocalMediaTransfer.Lib.Grouping
import LocalMediaTransfer.Ios.Upload.Types

/-!
# The media library on the phone

The paging part of `useMediaSelection` (`features/media/hooks/useMediaSelection.ts`) over
`MediaScanner.getMediaPage`: the first page of an album, further pages, and "select all".  Refs
change at once, what a callback reads of the state is what the last render captured, and every page
request is an await.  Layout, drag selection and album covers are left out.

* `PagedAlbum` — an album as the media library hands it out, page by page.
* `MediaView` — refs, state, the last render and the calls that wait for a page.
* `MediaView.step` — the calls, the answers to their requests, and renders, in any order.
-/

set_option autoImplicit false

namespace LocalMediaTransfer

open Lib

/-! ## Albums -/

structure MediaPage where
  assets : List MediaAsset
  hasNextPage : Bool
  endCursor : Option String := none
  deriving DecidableEq

/-- An album whose pages, read one after the other, are its assets. -/
structure PagedAlbum where
  assets : List MediaAsset
  /-- The page of `MEDIA_PAGE_SIZE` assets behind a cursor. -/
  page : Option String → MediaPage
  /-- The assets behind a cursor. -/
  behind : Option String → List MediaAsset
  nodup : (assets.map (·.id)).Nodup
  behind_start : behind none = assets
  behind_page : ∀ after, behind after = (page after).assets ++
    if (page after).hasNextPage then behind (page after).endCursor else []
  behind_shrinks : ∀ after, (page after).hasNextPage = true →
    (behind (page after).endCursor).length < (behind after).length

/-- How a page request ends; `ensurePermission` may deny it. -/
inductive PageAnswer where
  | page
  | denied
  | throws
  deriving DecidableEq

/-- `getMediaPage`, `none` when it throws. -/
def PagedAlbum.getMediaPage (album : PagedAlbum) (answer : PageAnswer) (after : Option String) :
    Option MediaPage :=
  match answer with
  | .page => some (album.page after)
  | .denied => some { assets := [], hasNextPage := false }
  | .throws => none

/-! ## The hook -/

inductive MediaCallKind where
  | fetchMedia
  | loadMoreMedia (after : Option String)
  | selectAll (allMedia : List MediaAsset) (after : Option String)
  deriving DecidableEq

/-- A call that waits for a page, with the operation number and the album it captured. -/
structure MediaCall where
  operation : Nat
  albumId : Option String
  kind : MediaCallKind
  deriving DecidableEq

namespace MediaText

def mediaUnavailable : String × String :=
  ("Media unavailable",
    "Could not load photos and videos. Check Photos permission and try again.")

def selectionUnavailable : String × String :=
  ("Selection unavailable", "Could not load every photo and video. Try again.")

end MediaText

structure MediaView where
  selectedAlbum : Option String
  media : List MediaAsset := []
  loading : Bool := true
  hasNextPage : Bool := false
  loadingMore : Bool := false
  /-- The IDs in `selectionStore`. -/
  selectedIds : List String := []
  selectedCount : Nat := 0
  /-- `media` and `loading` as the callbacks of the last render captured them. -/
  renderedMedia : List MediaAsset := []
  renderedLoading : Bool := true
  selectionOperationRef : Nat := 0
  pageCursorRef : Option String := none
  hasNextPageRef : Bool := false
  loadingMoreRef : Bool := false
  loadedMediaIdsRef : List String := []
  calls : Nat → Option MediaCall := fun _ => none
  nextCall : Nat := 0
  alerts : List (String × String) := []
  /-- What the `selectAll` calls selected, with their album. -/
  applied : List (Option String × List String) := []

namespace MediaView

variable (s : MediaView)

/-- A call with what it captures. -/
def call (kind : MediaCallKind) : MediaCall where
  operation := s.selectionOperationRef
  albumId := s.selectedAlbum
  kind

/-- Wait for a page. -/
def await (kind : MediaCallKind) : MediaView :=
  { s with
    calls := Function.update s.calls s.nextCall (some (s.call kind))
    nextCall := s.nextCall + 1 }

/-- The call has returned. -/
def drop (i : Nat) : MediaView := { s with calls := Function.update s.calls i none }

/-- Wait for the next page in the same call. -/
def resume (i : Nat) (call : MediaCall) (kind : MediaCallKind) : MediaView :=
  { s with calls := Function.update s.calls i (some { call with kind }) }

/-- What the effect clears for an album, after the render that `setSelectedAlbum` causes. -/
def cleared (albumId : Option String) : MediaView :=
  { s with
    selectedAlbum := albumId
    selectionOperationRef := s.selectionOperationRef + 1
    loading := true
    selectedIds := []
    selectedCount := 0
    media := []
    pageCursorRef := none
    hasNextPageRef := false
    loadingMoreRef := false
    loadedMediaIdsRef := []
    hasNextPage := false
    loadingMore := false
    renderedMedia := []
    renderedLoading := true }

/-- `setSelectedAlbum`, its render and the effect up to the first page request. -/
def openAlbum (albumId : Option String) : MediaView := (s.cleared albumId).await .fetchMedia

def render : MediaView :=
  { s with renderedMedia := s.media, renderedLoading := s.loading }

/-- The IDs of a list of assets. -/
def ids (assets : List MediaAsset) : List String := assets.map (·.id)

/-- The loops over a page: the assets whose ID is not loaded, each marked as loaded. -/
def takeNew (loaded : List String) : List MediaAsset → List String × List MediaAsset
  | [] => (loaded, [])
  | asset :: rest =>
    if asset.id ∈ loaded then takeNew loaded rest
    else
      let (loaded', additions) := takeNew (loaded ++ [asset.id]) rest
      (loaded', asset :: additions)

/-! ## The calls -/

/-- `loadMoreMedia` up to its request. -/
def loadMoreMedia : MediaView :=
  if s.renderedLoading || s.loadingMoreRef || !s.hasNextPageRef then s
  else { s with loadingMoreRef := true, loadingMore := true }.await (.loadMoreMedia s.pageCursorRef)

/-- `applySelection` of `new Set(ids)`. -/
def applySelection (ids : List String) : MediaView :=
  let next := ids.foldl setAdd []
  { s with
    selectedIds := next
    selectedCount := next.length
    applied := s.applied ++ [(s.selectedAlbum, next)] }

/-- The end of `selectAll` after its loop. -/
def selectAllDone (allMedia : List MediaAsset) (after : Option String) : MediaView :=
  { { s with
      pageCursorRef := after
      hasNextPageRef := false
      hasNextPage := false
      media := allMedia }.applySelection (ids allMedia) with loading := false }

/-- `selectAll` up to its first request, or to its end when no page is left. -/
def selectAll : MediaView :=
  if s.renderedLoading || s.loadingMoreRef then s
  else if s.hasNextPageRef then
    { s with loading := true }.await (.selectAll s.renderedMedia s.pageCursorRef)
  else s.selectAllDone s.renderedMedia s.pageCursorRef

/-! ## The answers -/

/-- `fetchMedia` after its request. -/
def fetchAnswered (result : Option MediaPage) : MediaView :=
  match result with
  | some page =>
    { s with
      loadedMediaIdsRef := (ids page.assets).foldl setAdd []
      pageCursorRef := page.endCursor
      hasNextPageRef := page.hasNextPage
      hasNextPage := page.hasNextPage
      media := page.assets
      loading := false }
  | none =>
    { s with
      selectedIds := []
      selectedCount := 0
      media := []
      alerts := s.alerts ++ [MediaText.mediaUnavailable]
      loading := false }

/-- `loadMoreMedia` after its request. -/
def loadMoreAnswered (result : Option MediaPage) : MediaView :=
  match result with
  | some page =>
    let (loaded, additions) := takeNew s.loadedMediaIdsRef page.assets
    { s with
      loadedMediaIdsRef := loaded
      media := s.media ++ additions
      pageCursorRef := page.endCursor
      hasNextPageRef := page.hasNextPage
      hasNextPage := page.hasNextPage
      loadingMoreRef := false
      loadingMore := false }
  | none => { s with loadingMoreRef := false, loadingMore := false }

/-- One round of the loop of `selectAll`, in call number `i`. -/
def selectAllAnswered (i : Nat) (call : MediaCall) (allMedia : List MediaAsset)
    (result : Option MediaPage) : MediaView :=
  match result with
  | some page =>
    let (loaded, additions) := takeNew s.loadedMediaIdsRef page.assets
    let s := { s with loadedMediaIdsRef := loaded }
    if page.hasNextPage then s.resume i call (.selectAll (allMedia ++ additions) page.endCursor)
    else (s.selectAllDone (allMedia ++ additions) page.endCursor).drop i
  | none =>
    { s with alerts := s.alerts ++ [MediaText.selectionUnavailable], loading := false }.drop i

/-- The request of call number `i` is answered; a call of an earlier operation returns. -/
def answered (library : Option String → PagedAlbum) (i : Nat) (call : MediaCall)
    (answer : PageAnswer) : MediaView :=
  let result := (library call.albumId).getMediaPage answer
  if call.operation ≠ s.selectionOperationRef then s.drop i
  else
    match call.kind with
    | .fetchMedia => (s.fetchAnswered (result none)).drop i
    | .loadMoreMedia after => (s.loadMoreAnswered (result after)).drop i
    | .selectAll allMedia after => s.selectAllAnswered i call allMedia (result after)

end MediaView

inductive MediaAction where
  | openAlbum (albumId : Option String)
  | render
  | loadMoreMedia
  | selectAll
  | answer (i : Nat) (answer : PageAnswer)
  deriving DecidableEq

/-- One action of the user or the system. -/
def MediaView.step (library : Option String → PagedAlbum) (s : MediaView) :
    MediaAction → Option MediaView
  | .openAlbum albumId => some (s.openAlbum albumId)
  | .render => some s.render
  | .loadMoreMedia => some s.loadMoreMedia
  | .selectAll => some s.selectAll
  | .answer i answer => (s.calls i).map fun call => s.answered library i call answer

/-- The screen after its first render and effect. -/
def MediaView.mounted : MediaView :=
  MediaView.openAlbum { selectedAlbum := none } none

end LocalMediaTransfer
