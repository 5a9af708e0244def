import Psfn.Lib.Calendar
import Psfn.Lib.Digits
import Psfn.Lib.Json
import Psfn.Lib.JsSet

/-!
# Tiered backup retention

`persistence/backups/retention.ts`: the backups of a root directory are kept by month, by ISO week,
by day and by recency, and the rest is removed. A date is its day, counted from 1970-01-01, and the
paths of a result are the names of the directories.
-/

namespace Psfn.Backups

open Psfn.Lib Psfn.Lib.Calendar Psfn.Lib.Digits
open Psfn.Lib.JsString (decimalValue)

abbrev Name := List Char

structure TieredRetentionOptions where
  maxRotatingBackups : JsNumber
  maxDailyBackups    : JsNumber
  maxWeeklyBackups   : JsNumber
  maxMonthlyBackups  : JsNumber

structure TieredRetentionResult where
  prunedBackupDirs : List Name
  keptBackupDirs   : List Name
  dailyCount       : Nat
  weeklyCount      : Nat
  monthlyCount     : Nat
deriving DecidableEq, Repr

structure Entry where
  name        : Name
  isDirectory : Bool
deriving DecidableEq, Repr

/-! ## Dates and keys -/

/-- `^(\d{4})(\d{2})(\d{2})T`. -/
def isDated (dirName : Name) : Bool :=
  decide ((dirName.take 8).length = 8) && (dirName.take 8).all Char.isDigit &&
    decide (dirName[8]? = some 'T')

def parseDirDate (dirName : Name) : Option Int :=
  if isDated dirName then
    some (utcDay (decimalValue (dirName.take 4)) (decimalValue ((dirName.drop 4).take 2) - 1)
      (decimalValue ((dirName.drop 6).take 2)))
  else none

/-- The Thursday of the ISO week of a day. -/
def thursdayOf (date : Int) : Int := date + 4 - if weekday date = 0 then 7 else weekday date

def isoWeekKey (dirName : Name) : Name :=
  (parseDirDate dirName).elim dirName fun date =>
    let thursday := thursdayOf date
    let year := yearFromDay thursday
    let jan1 := utcDay year 0 1
    -- the quotient rounded up
    let weekNumber := (thursday - jan1 + 1 + 6) / 7
    Json.intText year ++ ['-', 'W'] ++ padTwo (Json.intText weekNumber)

def isoDayKey (dirName : Name) : Name :=
  (parseDirDate dirName).elim dirName fun date =>
    Json.intText (yearFromDay date) ++ ['-'] ++ padTwo (Json.intText (monthFromDay date + 1)) ++
      ['-'] ++ padTwo (Json.intText (dateFromDay date))

def isoMonthKey (dirName : Name) : Name :=
  (parseDirDate dirName).elim dirName fun date =>
    Json.intText (yearFromDay date) ++ ['-'] ++ padTwo (Json.intText (monthFromDay date + 1))

def listBackupDirectories (rootDir : List Entry) : List Name :=
  (((rootDir.filter Entry.isDirectory).map Entry.name).filter fun name =>
    (parseDirDate name).isSome).mergeSort textLe

/-! ## `applyTieredRetention` -/

/-- The newest directory of each key; `dirs` are oldest first. -/
def toDir (key : Name → Name) (dirs : List Name) : JsMap Name Name :=
  dirs.foldl (fun map dir => map.set (key dir) dir) JsMap.empty

/-- The keys, most recent first. -/
def recentKeys (map : JsMap Name Name) : List Name := map.keys.mergeSort fun a b => textLe b a

/-- What is protected, and how many slots the tier has used. -/
abbrev TierState := List Name × Nat

/-- The loop over the months takes every month's directory. -/
def takeMonths (max : JsNumber) (map : JsMap Name Name) : List Name → TierState → TierState
  | [], state => state
  | key :: keys, state =>
    if max.le (.finite state.2) then state
    else takeMonths max map keys
      ((map.get key).elim state.1 (JsSet.add state.1), state.2 + 1)

/-- The loops over the weeks and the days pass over a protected directory. -/
def takeUnprotected (max : JsNumber) (map : JsMap Name Name) : List Name → TierState → TierState
  | [], state => state
  | key :: keys, state =>
    if max.le (.finite state.2) then state
    else takeUnprotected max map keys
      ((map.get key).elim state fun dir =>
        if dir ∈ state.1 then state else (JsSet.add state.1 dir, state.2 + 1))

/-- `Math.min`. -/
def minNumber (a b : JsNumber) : JsNumber :=
  if a = .nan ∨ b = .nan then .nan else if a.le b then a else b

/-- The loop over the rotating directories, from index `i`. -/
def takeRotating (limit : JsNumber) : Nat → List Name → List Name → List Name
  | _, [], protected_ => protected_
  | i, dir :: dirs, protected_ =>
    if (JsNumber.finite i).lt limit then takeRotating limit (i + 1) dirs (JsSet.add protected_ dir)
    else protected_

def applyTieredRetention (rootDir : List Entry) (options : TieredRetentionOptions) :
    TieredRetentionResult :=
  let dirs := listBackupDirectories rootDir
  let months := toDir isoMonthKey dirs
  let monthly := takeMonths options.maxMonthlyBackups months (recentKeys months) ([], 0)
  let weeks := toDir isoWeekKey dirs
  let weekly := takeUnprotected options.maxWeeklyBackups weeks (recentKeys weeks) (monthly.1, 0)
  let days := toDir isoDayKey dirs
  let daily := takeUnprotected options.maxDailyBackups days (recentKeys days) (weekly.1, 0)
  let rotating := dirs.reverse.filter fun dir => decide (dir ∉ daily.1)
  let limit := minNumber options.maxRotatingBackups (.finite rotating.length)
  let rotated := takeRotating limit 0 rotating daily.1
  let protected_ := dirs.getLast?.elim rotated (JsSet.add rotated)
  { prunedBackupDirs := dirs.filter fun dir => decide (dir ∉ protected_)
    keptBackupDirs := dirs.filter fun dir => decide (dir ∈ protected_)
    dailyCount := daily.2
    weeklyCount := weekly.2
    monthlyCount := monthly.2 }

/-- The root directory once the pruned directories are removed. -/
def rootAfter (rootDir : List Entry) (options : TieredRetentionOptions) : List Entry :=
  rootDir.filter fun entry =>
    decide (entry.name ∉ (applyTieredRetention rootDir options).prunedBackupDirs)

end Psfn.Backups
