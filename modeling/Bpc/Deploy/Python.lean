/-
  PYTHON VALUES — what the Controller's request handlers compute with.

  1. **Values** — `Json` is the result of `json.loads`; a float is its `repr`, a nested dictionary
     has its keys in order (`Dict`), and LONE SURROGATES are left out.
  2. **Runtime** — what the handlers take from outside.  Stored bytes are touched only through it.
-/
import Bpc.Controlplane.StateMachine

namespace Bpc.Deploy

open SlashPath Controlplane

/-! ## Values -/

/-- A dictionary: its keys in ascending order, and a value for each. -/
structure Dict (α : Type) where
  keys : List Str
  sorted : keys.Pairwise fun a b => compare a b = .lt
  value : Fin keys.length → α

/-- The dictionary of some items; the last item of a key counts. -/
def Dict.of {α : Type} (items : List (Str × α)) : Dict α :=
  let m : SortedMap Str α := SortedMap.insertPairs ∅ items
  { keys := m.toList.map Prod.fst
    sorted := List.pairwise_map.mpr m.ordered_keys_toList
    value := fun i => (m.toList.get (i.cast (List.length_map _))).2 }

/-- `d.get(key)`. -/
def Dict.get {α : Type} (d : Dict α) (key : Str) : Option α :=
  ((List.finRange d.keys.length).find? fun i => d.keys.get i = key).map d.value

/-- A value of `json.loads`. -/
inductive Json where
  | null
  | bool (b : Bool)
  | int (n : Int)
  | float (text : Str)
  | str (s : Str)
  | arr (items : List Json)
  | obj (fields : Dict Json)

namespace Json

/-- The float zeros, as `repr` prints them. -/
def isZeroFloat (text : Str) : Bool := text = ("0.0" : Str) || text = ("-0.0" : Str)

/-- `bool(x)`. -/
def truthy : Json → Bool
  | null => false
  | bool b => b
  | int n => n ≠ 0
  | float text => !isZeroFloat text
  | str s => s ≠ []
  | arr items => !items.isEmpty
  | obj fields => !fields.keys.isEmpty

/-- `x in (None, "", 0)`. -/
def isUnset : Json → Bool
  | null => true
  | bool b => !b
  | int n => n = 0
  | float text => isZeroFloat text
  | str s => s = []
  | arr _ => false
  | obj _ => false

mutual

/-- `x == y`; a boolean equals its number.  An integer and a float are never equal here: the fields
    that are compared are texts. -/
def beq : Json → Json → Bool
  | null, null => true
  | bool a, bool b => a = b
  | bool a, int n => n = if a then 1 else 0
  | int n, bool a => n = if a then 1 else 0
  | int m, int n => m = n
  | float s, float t => s = t
  | str s, str t => s = t
  | arr xs, arr ys => beqItems xs ys
  | obj xs, obj ys => beqFields xs ys
  | _, _ => false

/-- Lists of equal values. -/
def beqItems : List Json → List Json → Bool
  | [], [] => true
  | x :: xs, y :: ys => x.beq y && beqItems xs ys
  | _, _ => false

/-- Dictionaries with the same keys and equal values. -/
def beqFields : Dict Json → Dict Json → Bool
  | ⟨keys, _, value⟩, ⟨keys', _, value'⟩ =>
    if h : keys = keys' then (List.finRange keys.length).all fun i =>
      (value i).beq (value' (i.cast (congrArg List.length h)))
    else false

end

end Json

/-- A canonical record. -/
abbrev Record := SortedMap Str Json

/-- `record.get(key, default)`. -/
def Record.get (r : Record) (key : Str) (default : Json) : Json := (r[key]?).getD default

/-- The record of some items. -/
def Record.of (items : List (Str × Json)) : Record := SortedMap.insertPairs ∅ items

theorem Record.get_of {items : List (Str × Json)} {key : Str} {v : Json}
    (hkeys : (items.map Prod.fst).Nodup) (hmem : (key, v) ∈ items) :
    (Record.of items)[key]? = some v :=
  SortedMap.get_insertPairs_of_mem hkeys hmem

theorem Record.get_of_outside {items : List (Str × Json)} {key : Str}
    (h : key ∉ items.map Prod.fst) : (Record.of items)[key]? = none :=
  (SortedMap.get_insertPairs_outside h).trans (SortedMap.get_empty _)

/-- What `json.loads` makes of stored bytes. -/
inductive Loaded where
  | invalid
  | other
  | object (r : Record)

/-! ## Exceptions -/

/-- The exceptions that handlers distinguish. -/
inductive PyError where
  | identity (message : Str) (status : Nat)
  | controlState (message : Str) (status : Nat)
  | enrollment (message : Str) (status : Nat)
  | topology (message : Str)
  | attribute
  | legacyAuth
  | access
  | os
  | value
  | key
  | type
  | runtime
  deriving DecidableEq

/-- `except (OSError, ValueError, json.JSONDecodeError)`. -/
def PyError.isFile : PyError → Bool
  | os => true
  | value => true
  | _ => false

/-! ## Text -/

/-- White space for `str.strip`. -/
def isPySpace (c : Char) : Bool := isSpace c || (0x1c ≤ c.toNat && c.toNat ≤ 0x1f)

/-- `s.strip()`. -/
def strip (s : Str) : Str := (s.dropWhile isPySpace).rdropWhile isPySpace

/-- A lower-case hexadecimal digit. -/
def isHexDigit (c : Char) : Bool := c.isDigit || ('a' ≤ c && c ≤ 'f')

/-- `re.fullmatch(r"[0-9a-f]{n}", s)`. -/
def isHex (n : Nat) (s : Str) : Bool := s.length = n && s.all isHexDigit

/-! ## The runtime -/

/-- An address, as a number. -/
inductive IpAddress where
  | v4 (n : Nat)
  | v6 (n : Nat)
  deriving DecidableEq

/-- The outside functions. -/
structure Runtime (Data : Type) where
  codec : Codec (Mutation Data) Data
  dumps : Record → Data
  loads : Data → Loaded
  /-- `str(x)` of a list or a dictionary. -/
  strContainer : Json → Str
  /-- `int(x)`. -/
  int : Json → Except PyError Int
  /-- `hashlib.sha256(text.encode()).hexdigest()`. -/
  sha256Text : Str → Str
  /-- Does `int(text, 16)` succeed? -/
  isHexInt : Str → Bool
  passwordVerify : Str → Str → Bool
  needsRehash : Str → Bool
  verifyProof : Str → Str → Str → Except PyError Unit
  /-- The length of `base64.b64decode(text, validate=True)`. -/
  b64Length : Str → Option Nat
  validWireguardKey : Str → Bool
  /-- `ipaddress.ip_network(text, strict=False)`, if it is an IPv4 network. -/
  ipNetwork4 : Str → Option Prefix4
  /-- `ipaddress.ip_interface(text).ip`. -/
  ipInterface : Str → Option IpAddress
  /-- `str(ipaddress.IPv4Address(n))`. -/
  ipText : Nat → Str
  loads_dumps : ∀ r, loads (dumps r) = .object r
  sha256Text_hex : ∀ s, isHex 64 (sha256Text s) = true
  sha256Hex_lower : ∀ d, toLower (codec.sha256Hex d) = codec.sha256Hex d
  sha256Hex_ne : ∀ d, codec.sha256Hex d ≠ []
  ipText_plain : ∀ n, '/' ∉ ipText n

variable {Data : Type} (P : Runtime Data)

/-- `str(x)`. -/
def Runtime.str : Json → Str
  | .null => "None"
  | .bool true => "True"
  | .bool false => "False"
  | .int n => (toString n).toList
  | .float text => text
  | .str s => s
  | .arr items => P.strContainer (.arr items)
  | .obj fields => P.strContainer (.obj fields)

/-- `str(record.get(key, ""))`. -/
def Runtime.strField (r : Record) (key : Str) : Str := P.str (r.get key (.str []))

/-- `str(device.get("id", device.get("device_id", fallback)))`. -/
def Runtime.deviceId (device : Record) (fallback : Str) : Str :=
  P.str (device.get "id" (device.get "device_id" (.str fallback)))

/-! ## Hexadecimal texts are plain names -/

theorem isHexDigit_ne_slash {c : Char} (h : isHexDigit c = true) : c ≠ '/' := by
  rintro rfl
  exact absurd h (by decide)

theorem not_slash_of_isHex {n : Nat} {s : Str} (h : isHex n s = true) : '/' ∉ s := by
  intro hmem
  have hall : s.all isHexDigit = true := (Bool.and_eq_true _ _ ▸ h).2
  exact isHexDigit_ne_slash (List.all_eq_true.mp hall _ hmem) rfl

theorem toNat_of_hex {c : Char} (h : isHexDigit c = true) : 48 ≤ c.toNat ∧ c.toNat ≤ 102 := by
  simp only [isHexDigit, Char.isDigit, Bool.or_eq_true, Bool.and_eq_true, decide_eq_true_eq,
    Char.le_def, UInt32.le_iff_toNat_le] at h
  have hval : c.val.toNat = c.toNat := rfl
  have h0 : ('0' : Char).val.toNat = 48 := rfl
  have h9 : ('9' : Char).val.toNat = 57 := rfl
  have ha : ('a' : Char).val.toNat = 97 := rfl
  have hf : ('f' : Char).val.toNat = 102 := rfl
  omega

theorem isPySpace_of_hex {c : Char} (h : isHexDigit c = true) : isPySpace c = false := by
  have hrange := toNat_of_hex h
  simp only [isPySpace, isSpace]
  grind

theorem strip_eq_self {s : Str} (h : ∀ c ∈ s, isPySpace c = false) : strip s = s := by
  have hspace : ∀ c ∈ s, ¬ isPySpace c = true := fun c hc => Bool.eq_false_iff.mp (h c hc)
  have hleft : s.dropWhile isPySpace = s := by
    cases s with
    | nil => rfl
    | cons c cs => exact List.dropWhile_cons_of_neg (hspace c List.mem_cons_self)
  unfold strip
  rw [hleft, List.rdropWhile_eq_self_iff]
  intro hne
  exact hspace _ (List.getLast_mem hne)

theorem strip_hex {n : Nat} {s : Str} (h : isHex n s = true) : strip s = s := by
  have hall : s.all isHexDigit = true := (Bool.and_eq_true _ _ ▸ h).2
  exact strip_eq_self fun c hc => isPySpace_of_hex (List.all_eq_true.mp hall c hc)

end Bpc.Deploy
