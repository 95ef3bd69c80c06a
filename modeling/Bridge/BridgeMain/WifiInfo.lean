import Bridge.BridgeMain.Statistics
import Bridge.Library.Pattern

namespace Bridge.Profile

open Stdio
open Pattern (Piece)

structure ProWifiInfo where
  ssid : List UInt8
  signal : Int

structure WifiInput where
  ssidText : List UInt8
  signalText : List UInt8
  ssid : Vector UInt8 50
  signal : Int

def anything : UInt8 → Bool := fun _ => true

/-- `^wlan0.*?ESSID:"(.*)".*?\n` -/
def ssidPattern : List Piece :=
  [.text (ascii "wlan0"), .run anything 0, .text (ascii "ESSID:\""), .group anything 0, .text (ascii "\""),
    .run anything 0, .text [newline]]

/-- `^\s+.*?Quality=([0-9]{1,}).*?\n` -/
def signalPattern : List Piece :=
  [.run isSpace 1, .run anything 0, .text (ascii "Quality="), .group isDigit 1, .run anything 0, .text [newline]]

/-- The loop of both functions: the group of the first line that the expression matches. -/
def firstMatch (pieces : List Piece) (stream : List UInt8) : Option (List UInt8) :=
  (lines 1024 stream).findSome? fun buff => Pattern.find pieces (buff.takeWhile (· != 0))

def matchArray (found : List UInt8) : Option (List UInt8) := Memory.write (List.replicate 50 0) 0 found

def getWifiSsid (stream ssid : List UInt8) : Option (List UInt8) :=
  match firstMatch ssidPattern stream with
  | none => some ssid
  | some found => (matchArray found).bind (strcpy ssid)

def atoi (target : Target) (text : List UInt8) : Int :=
  match Conversion.number.take text with
  | some (.number n, _) => toInt (strtol target n)
  | _ => 0

def getWifiSignal (target : Target) (stream : List UInt8) (signal : Int) : Option Int :=
  match firstMatch signalPattern stream with
  | none => some signal
  | some found => (matchArray found).bind fun array => (CString.chars array).map (atoi target)

def proGetWifiInfo (target : Target) (input : WifiInput) : Option ProWifiInfo := do
  let ssid ← getWifiSsid input.ssidText input.ssid.toList
  let signal ← getWifiSignal target input.signalText input.signal
  return { ssid, signal }

def WifiInput.ShortSsid (input : WifiInput) : Prop :=
  match firstMatch ssidPattern input.ssidText with
  | some found => found.length < 50
  | none => 0 ∈ input.ssid.toList

def WifiInput.network (input : WifiInput) : List UInt8 :=
  (firstMatch ssidPattern input.ssidText).getD (input.ssid.toList.takeWhile (· != 0))

def WifiInput.ShortSignal (input : WifiInput) : Prop :=
  ∀ found, firstMatch signalPattern input.signalText = some found → found.length < 50

section Groups

variable {pieces : List Piece} {stream found : List UInt8}

theorem firstMatch_line (matched : firstMatch pieces stream = some found) :
    ∃ buff ∈ lines 1024 stream, Pattern.Matches pieces (buff.takeWhile (· != 0)) found := by
  rcases List.exists_of_findSome?_eq_some matched with ⟨buff, listed, found'⟩
  exact ⟨buff, listed, Pattern.find_matches found'⟩

theorem firstMatch_nonzero (matched : firstMatch pieces stream = some found) : 0 ∉ found := by
  rcases firstMatch_line matched with ⟨buff, listed, stands⟩
  intro inside
  have nonzero := List.all_eq_true.mp List.all_takeWhile 0 (stands.mem inside)
  exact absurd nonzero (by decide)

theorem matchArray_some (nonzero : 0 ∉ found) (short : found.length < 50) :
    ∃ array, matchArray found = some array ∧ CString.chars array = some found := by
  have fits : 0 + found.length ≤ (List.replicate 50 (0 : UInt8)).length := by
    rw [List.length_replicate]
    omega
  refine ⟨_, Memory.write_eq_some_iff.mpr ⟨fits, rfl⟩, ?_⟩
  rw [Memory.place_cleared]
  exact CString.chars_cleared nonzero (by omega)

theorem matchArray_short {array text : List UInt8} (nonzero : 0 ∉ found) (copied : matchArray found = some array)
    (read : CString.chars array = some text) : found.length < 50 := by
  rcases Memory.write_eq_some_iff.mp copied with ⟨fits, rfl⟩
  rw [List.length_replicate, Nat.zero_add] at fits
  rcases Nat.lt_or_eq_of_le fits with short | full
  · exact short
  · rw [Memory.place_cleared, full, Nat.sub_self, List.replicate_zero, List.append_nil, CString.chars_eq, if_neg nonzero] at read
    cases read

end Groups

section Wifi

variable {target : Target} {input : WifiInput}

theorem getWifiSsid_some (short : input.ShortSsid) : ∃ after, getWifiSsid input.ssidText input.ssid.toList = some after ∧
    CString.chars after = some input.network ∧ input.network.length < 50 := by
  have length : input.ssid.toList.length = 50 := Vector.length_toList
  unfold WifiInput.ShortSsid at short
  unfold getWifiSsid WifiInput.network
  cases matched : firstMatch ssidPattern input.ssidText with
  | none =>
    rw [matched] at short
    have read : CString.chars input.ssid.toList = some (input.ssid.toList.takeWhile (· != 0)) := by
      rw [CString.chars_eq, if_pos short]
    have inside := CString.chars_lt read
    rw [length] at inside
    exact ⟨_, rfl, read, inside⟩
  | some found =>
    rw [matched] at short
    rcases matchArray_some (firstMatch_nonzero matched) short with ⟨array, copied, read⟩
    rcases strcpy_some read (by rw [length]; exact short) with ⟨after, written, -, read'⟩
    refine ⟨after, ?_, read', short⟩
    dsimp only
    rw [copied, Option.bind_some, written]

theorem getWifiSsid_short {after text : List UInt8} (stored : getWifiSsid input.ssidText input.ssid.toList = some after)
    (read : CString.chars after = some text) : input.ShortSsid := by
  unfold WifiInput.ShortSsid
  unfold getWifiSsid at stored
  cases matched : firstMatch ssidPattern input.ssidText with
  | none =>
    rw [matched] at stored
    cases stored
    rcases CString.chars_some read with ⟨rest, split⟩
    rw [split]
    exact List.mem_append_right _ List.mem_cons_self
  | some found =>
    rw [matched] at stored
    rcases Option.bind_eq_some_iff.mp stored with ⟨array, copied, written⟩
    rcases strcpy_room written with ⟨text, read', -⟩
    exact matchArray_short (firstMatch_nonzero matched) copied read'

theorem getWifiSignal_some_iff :
    (∃ signal, getWifiSignal target input.signalText input.signal = some signal) ↔ input.ShortSignal := by
  unfold getWifiSignal WifiInput.ShortSignal
  cases matched : firstMatch signalPattern input.signalText with
  | none => exact iff_of_true ⟨_, rfl⟩ fun found same => by cases same
  | some found =>
    constructor
    · rintro ⟨signal, stored⟩ found' same
      cases same
      rcases Option.bind_eq_some_iff.mp stored with ⟨array, copied, read⟩
      rcases Option.map_eq_some_iff.mp read with ⟨text, read', -⟩
      exact matchArray_short (firstMatch_nonzero matched) copied read'
    · intro short
      rcases matchArray_some (firstMatch_nonzero matched) (short found rfl) with ⟨array, copied, read⟩
      refine ⟨atoi target found, ?_⟩
      dsimp only
      rw [copied, Option.bind_some, read, Option.map_some]

theorem proGetWifiInfo_eq_some_iff {info : ProWifiInfo} : proGetWifiInfo target input = some info ↔
    getWifiSsid input.ssidText input.ssid.toList = some info.ssid ∧
      getWifiSignal target input.signalText input.signal = some info.signal := by
  rw [proGetWifiInfo, Option.bind_eq_bind, Option.bind_eq_some_iff]
  constructor
  · rintro ⟨ssid, ssidDone, rest⟩
    rcases Option.bind_eq_some_iff.mp rest with ⟨signal, signalDone, same⟩
    cases same
    exact ⟨ssidDone, signalDone⟩
  · rintro ⟨ssidDone, signalDone⟩
    exact ⟨_, ssidDone, Option.bind_eq_some_iff.mpr ⟨_, signalDone, rfl⟩⟩

end Wifi

end Bridge.Profile
