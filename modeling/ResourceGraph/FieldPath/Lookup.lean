import ResourceGraph.FieldPath.Basic
import ResourceGraph.Document.Basic

/-!
# Looking up field paths

A path is followed step by step. A key selects the entry of a map; of a list it selects the list of what it
selects in each element, leaving out the elements in which it fails, so it never fails on a list. A position
selects an element of a list. The first step that cannot be taken is the obstacle.
-/

namespace ResourceGraph

/-- Why a step cannot be taken. -/
inductive Obstacle
  | missingKey (key : String)
  | outOfRange (position : UInt64)
  | noKeys (key : String) (found : DocumentType)
  | noPositions (position : UInt64) (found : DocumentType)
deriving DecidableEq

def Obstacle.message : Obstacle → String
  | .missingKey key => "key '" ++ key ++ "' not found"
  | .outOfRange position => "index " ++ Nat.repr position.toNat ++ " out of range"
  | .noKeys key found => "cannot select key '" ++ key ++ "' from " ++ found.name
  | .noPositions position found => "cannot index [" ++ Nat.repr position.toNat ++ "] into " ++ found.name

/-- A path that leads nowhere in a document. -/
structure LookupError where
  path : FieldPath
  obstacle : Obstacle
deriving DecidableEq

def LookupError.message (error : LookupError) : String :=
  "Path lookup failed for '" ++ error.path.display ++ "': " ++ error.obstacle.message

namespace Document

mutual

/-- What a key selects in a document. -/
def selectKey (key : String) : Document → Except Obstacle Document
  | .map entries =>
    match Entries.get? key entries with
    | some value => .ok value
    | none => .error (.missingKey key)
  | .list items => .ok (.list (selectKeyInItems key items))
  | document => .error (.noKeys key document.type)

/-- What a key selects in the documents of a list, where it selects anything. -/
def selectKeyInItems (key : String) : List Document → List Document
  | [] => []
  | item :: items =>
    match selectKey key item with
    | .ok value => value :: selectKeyInItems key items
    | .error _ => selectKeyInItems key items

end

/-- What a position selects in a document. -/
def selectIndex (position : UInt64) : Document → Except Obstacle Document
  | .list items =>
    match items[position.toNat]? with
    | some item => .ok item
    | none => .error (.outOfRange position)
  | document => .error (.noPositions position document.type)

/-- What a step selects in a document. -/
def select : FieldPath.Segment → Document → Except Obstacle Document
  | .key name => selectKey name
  | .index position => selectIndex position

/-- What a sequence of steps selects in a document. -/
def follow : List FieldPath.Segment → Document → Except Obstacle Document
  | [], document => .ok document
  | segment :: segments, document => (select segment document).bind (follow segments)

theorem selectKeyInItems_eq_filterMap (key : String) (items : List Document) :
    selectKeyInItems key items = items.filterMap fun item => (selectKey key item).toOption := by
  induction items with
  | nil => rfl
  | cons item items ih =>
    simp only [selectKeyInItems, List.filterMap_cons]
    split <;> simp_all [Except.toOption]

end Document

/-- The value at the end of a path in a document. -/
def FieldPath.lookup (path : FieldPath) (document : Document) : Except LookupError Document :=
  match document.follow path.segments with
  | .ok value => .ok value
  | .error obstacle => .error { path, obstacle }

end ResourceGraph
