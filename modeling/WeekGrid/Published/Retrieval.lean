import WeekGrid.Keyed
import WeekGrid.Published.Listing
import WeekGrid.Text.Utf8

/-!
Fetching a published timetable: the listing of a year, the entry of a week, and its file. What the network
answers is given as a table of responses, so that a run is a function of it; an address without a response
has no route.
-/
namespace WeekGrid.Published

open Text (Bytes)

structure Response where
  status : Nat
  reason : String
  body : Bytes
  deriving DecidableEq

abbrev Web := List (String × Response)

def requestTimeout : Nat := 30

/-- The body of an address's response; a client or server error has none. -/
def Web.get (web : Web) (url : String) : Except Fault Bytes :=
  match Keyed.get? (· == ·) url web with
  | none => throw (.noRoute url)
  | some response =>
    if 400 ≤ response.status ∧ response.status < 600 then
      throw (.badStatus response.status response.reason url)
    else return response.body

def listEntries (web : Web) (year : YearOfStudy) (site : String) : Except Fault (List Entry) := do
  readListing (Text.decodeLossy (← web.get (directoryUrl site year))) year site

/-- How far a fetch got: the addresses asked for, and the results in their order up to a failure. -/
structure Retrieval where
  requests : List String
  entries : Option (List Entry)
  found : Option (Option Entry)
  file : Option Bytes
  fault : Option Fault
  deriving DecidableEq

def retrieveYear (web : Web) (year : YearOfStudy) (week : Int) (site : String) : Retrieval :=
  let listing := directoryUrl site year
  match listEntries web year site with
  | .error fault => ⟨[listing], none, none, none, some fault⟩
  | .ok entries =>
    match entryOfWeek? week entries with
    | none => ⟨[listing], some entries, some none, none, none⟩
    | some entry =>
      match web.get entry.url with
      | .error fault => ⟨[listing, entry.url], some entries, some (some entry), none, some fault⟩
      | .ok file => ⟨[listing, entry.url], some entries, some (some entry), some file, none⟩

/-- Fetches for a year given by its name; an unknown year asks for nothing. -/
def retrieve (web : Web) (year : String) (week : Int) (site : String) : Retrieval :=
  match YearOfStudy.ofName? year with
  | none => ⟨[], none, none, none, some .unknownYearOfStudy⟩
  | some year => retrieveYear web year week site

end WeekGrid.Published
