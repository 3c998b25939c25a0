import WeekGrid.Page.Scan

/-!
A page with the forms it invokes, and those that they invoke in turn. Each stream is scanned at most once;
the form invoked last comes first. The traversal ends because every scan uses up a key.
-/
namespace WeekGrid.Page

open Pdf (Reading)

def withoutKey (key : StreamKey) (keys : List StreamKey) : List StreamKey :=
  keys.filter (· ≠ key)

theorem length_withoutKey_lt {key : StreamKey} {keys : List StreamKey} (h : key ∈ keys) :
    (withoutKey key keys).length < keys.length :=
  List.length_filter_lt_length_iff_exists.2 ⟨key, h, by simp⟩

/-- The streams of a document that a page may invoke, and the line advance. -/
structure Library where
  leading : Binary64
  streams : List FormStream

namespace Library

def defaultLeading : Binary64 := 14

def keys (library : Library) : List StreamKey :=
  .page :: library.streams.mapIdx fun index form => form.key index

def scope (library : Library) (resources : Resources) (remaining : List StreamKey) : Scope :=
  ⟨library.leading, library.streams, resources, fun key => !remaining.contains key⟩

/-- Scans the jobs in order, each followed by the forms it invokes; `remaining` holds the keys that have
not been scanned. -/
def traverse (library : Library) (remaining : List StreamKey) (jobs : List Job) :
    Except Failure Elements :=
  match jobs with
  | [] => return .empty
  | job :: rest =>
    if _h : job.key ∈ remaining then do
      let left := withoutKey job.key remaining
      let drawn ← scan (library.scope job.resources left) job.graphics job.content
      let more ← traverse library left (drawn.invoked.reverse ++ rest)
      return drawn.elements.append more
    else traverse library remaining rest
termination_by (remaining.length, jobs.length)
decreasing_by
  · exact Prod.Lex.left _ _ (length_withoutKey_lt _h)
  · exact Prod.Lex.right _ (Nat.lt_succ_self _)

def interpret (library : Library) (content : Reading) (resources : Resources) :
    Except Failure Elements :=
  library.traverse library.keys [⟨.page, content, resources, .initial⟩]

end Library
end WeekGrid.Page
