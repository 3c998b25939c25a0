import WeekGrid.Civil.Zone

/-!
A time of day on a date, to the minute, in a zone or in none, and its written forms.
-/
namespace WeekGrid

structure DateTime where
  date : Date
  hour : Nat
  minute : Nat
  zone : Option Zone
  deriving DecidableEq, Inhabited

namespace DateTime

def midnight (date : Date) (zone : Option Zone) : DateTime := ⟨date, 0, 0, zone⟩

def second (t : DateTime) : Nat := t.hour * 3600 + t.minute * 60

/-- An offset as `+hh:mm`, with its seconds only if there are any. -/
def writeOffset (offset : Nat) : List Char :=
  '+' :: paddedDigits 2 (offset / 3600) ++ ':' :: paddedDigits 2 (offset / 60 % 60) ++
    (if offset % 60 = 0 then [] else ':' :: paddedDigits 2 (offset % 60))

def write (separator : Char) (t : DateTime) : String :=
  t.date.dashed ++ String.ofList
    (separator :: paddedDigits 2 t.hour ++ ':' :: paddedDigits 2 t.minute ++ [':', '0', '0'] ++
      (match t.zone with
        | none => []
        | some zone => writeOffset (zone.offset t.date t.second)))

def iso (t : DateTime) : String := t.write 'T'

def spaced (t : DateTime) : String := t.write ' '

/-- The form `hh:mm dd/mm/year`. -/
def clock (t : DateTime) : String :=
  String.ofList (paddedDigits 2 t.hour ++ ':' :: paddedDigits 2 t.minute ++ [' ']) ++ t.date.slashed

end DateTime
end WeekGrid
