import WeekGrid.Civil.Date

/-!
The two time zones of the library and the offset of a local time in them. Paris has a table of
transitions up to 1996, and summer time from the last Sunday of March to the last Sunday of October
afterwards. A local time that occurs twice is the earlier one, and one that is left out still has the
offset before the gap.
-/
namespace WeekGrid

inductive Zone where
  | utc
  | paris
  deriving DecidableEq, Repr

namespace Zone

/-- A change of offset: the instant in seconds of universal time, and the offset from then on. -/
structure Transition where
  instant : Nat
  offset : Nat

def secondNumber (dayNumber second : Nat) : Nat := dayNumber * 86400 + second

def parisMeanTime : Nat := 561

/-- Year, month, day and second of the transitions of Paris in universal time, and the new offset. -/
def parisTable : List (Nat × Nat × Nat × Nat × Nat) := [
  (1891, 3, 15, 85839, 561), (1911, 3, 10, 85839, 0), (1916, 6, 14, 82800, 3600),
  (1916, 10, 1, 82800, 0), (1917, 3, 24, 82800, 3600), (1917, 10, 7, 82800, 0),
  (1918, 3, 9, 82800, 3600), (1918, 10, 6, 82800, 0), (1919, 3, 1, 82800, 3600),
  (1919, 10, 5, 82800, 0), (1920, 2, 14, 82800, 3600), (1920, 10, 23, 82800, 0),
  (1921, 3, 14, 82800, 3600), (1921, 10, 25, 82800, 0), (1922, 3, 25, 82800, 3600),
  (1922, 10, 7, 82800, 0), (1923, 5, 26, 82800, 3600), (1923, 10, 6, 82800, 0),
  (1924, 3, 29, 82800, 3600), (1924, 10, 4, 82800, 0), (1925, 4, 4, 82800, 3600),
  (1925, 10, 3, 82800, 0), (1926, 4, 17, 82800, 3600), (1926, 10, 2, 82800, 0),
  (1927, 4, 9, 82800, 3600), (1927, 10, 1, 82800, 0), (1928, 4, 14, 82800, 3600),
  (1928, 10, 6, 82800, 0), (1929, 4, 20, 82800, 3600), (1929, 10, 5, 82800, 0),
  (1930, 4, 12, 82800, 3600), (1930, 10, 4, 82800, 0), (1931, 4, 18, 82800, 3600),
  (1931, 10, 3, 82800, 0), (1932, 4, 2, 82800, 3600), (1932, 10, 1, 82800, 0),
  (1933, 3, 25, 82800, 3600), (1933, 10, 7, 82800, 0), (1934, 4, 7, 82800, 3600),
  (1934, 10, 6, 82800, 0), (1935, 3, 30, 82800, 3600), (1935, 10, 5, 82800, 0),
  (1936, 4, 18, 82800, 3600), (1936, 10, 3, 82800, 0), (1937, 4, 3, 82800, 3600),
  (1937, 10, 2, 82800, 0), (1938, 3, 26, 82800, 3600), (1938, 10, 1, 82800, 0),
  (1939, 4, 15, 82800, 3600), (1939, 11, 18, 82800, 0), (1940, 2, 25, 7200, 3600),
  (1940, 6, 14, 79200, 7200), (1942, 11, 2, 3600, 3600), (1943, 3, 29, 3600, 7200),
  (1943, 10, 4, 3600, 3600), (1944, 4, 3, 3600, 7200), (1944, 8, 24, 79200, 7200),
  (1944, 10, 7, 82800, 3600), (1945, 4, 2, 3600, 7200), (1945, 9, 16, 3600, 3600),
  (1976, 3, 28, 0, 7200), (1976, 9, 25, 82800, 3600), (1977, 4, 3, 3600, 7200),
  (1977, 9, 25, 3600, 3600), (1978, 4, 2, 3600, 7200), (1978, 10, 1, 3600, 3600),
  (1979, 4, 1, 3600, 7200), (1979, 9, 30, 3600, 3600), (1980, 4, 6, 3600, 7200),
  (1980, 9, 28, 3600, 3600), (1981, 3, 29, 3600, 7200), (1981, 9, 27, 3600, 3600),
  (1982, 3, 28, 3600, 7200), (1982, 9, 26, 3600, 3600), (1983, 3, 27, 3600, 7200),
  (1983, 9, 25, 3600, 3600), (1984, 3, 25, 3600, 7200), (1984, 9, 30, 3600, 3600),
  (1985, 3, 31, 3600, 7200), (1985, 9, 29, 3600, 3600), (1986, 3, 30, 3600, 7200),
  (1986, 9, 28, 3600, 3600), (1987, 3, 29, 3600, 7200), (1987, 9, 27, 3600, 3600),
  (1988, 3, 27, 3600, 7200), (1988, 9, 25, 3600, 3600), (1989, 3, 26, 3600, 7200),
  (1989, 9, 24, 3600, 3600), (1990, 3, 25, 3600, 7200), (1990, 9, 30, 3600, 3600),
  (1991, 3, 31, 3600, 7200), (1991, 9, 29, 3600, 3600), (1992, 3, 29, 3600, 7200),
  (1992, 9, 27, 3600, 3600), (1993, 3, 28, 3600, 7200), (1993, 9, 26, 3600, 3600),
  (1994, 3, 27, 3600, 7200), (1994, 9, 25, 3600, 3600), (1995, 3, 26, 3600, 7200),
  (1995, 9, 24, 3600, 3600), (1996, 3, 31, 3600, 7200)]

def parisTransitions : List Transition :=
  parisTable.map fun (year, month, day, second, offset) =>
    ⟨secondNumber (Civil.daysBeforeYear year + Civil.daysBeforeMonth year month + day) second, offset⟩

/-- The offset of a local time after some transitions: a transition is passed when the local time has
reached it by the clock that is further ahead. -/
def offsetAfter (transitions : List Transition) (start localSecond : Nat) : Nat :=
  transitions.foldl (fun offset t =>
    if t.instant + max offset t.offset ≤ localSecond then t.offset else offset) start

def lastSunday (year month : Nat) : Nat :=
  let last := Civil.daysBeforeYear year + Civil.daysBeforeMonth year month + 31
  last - last % 7

/-- Whether a local time lies in the summer time of its year; both changes are at three by the clock. -/
def isSummer (year localSecond : Nat) : Bool :=
  secondNumber (lastSunday year 3) 10800 ≤ localSecond &&
    localSecond < secondNumber (lastSunday year 10) 10800

def parisOffset (date : Date) (second : Nat) : Nat :=
  let localSecond := secondNumber date.dayNumber second
  if 1996 < date.year ∨ (date.year = 1996 ∧ 6 < date.month) then
    if isSummer date.year localSecond then 7200 else 3600
  else offsetAfter parisTransitions parisMeanTime localSecond

def offset (zone : Zone) (date : Date) (second : Nat) : Nat :=
  match zone with
  | utc => 0
  | paris => parisOffset date second

end Zone
end WeekGrid
