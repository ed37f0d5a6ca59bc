/-
  A RUNTIME THAT CAN BE RUN — the assumptions on the outside functions are consistent.

  Stored bytes are decoded values; the digest of a value is a rendering of it.  It tells apart the
  FLAT values, in which nothing is nested (`render_injective`), so runs over these have no
  collisions (`noCollision_of_flat`).
-/
import Bpc.Deploy.Calls

namespace Bpc.Deploy

open SlashPath Controlplane Interaction

/-! ## A binary rendering of JSON values -/

/-- `n` in unary. -/
def natBits (n : Nat) : List Bool := List.replicate n true ++ [false]

/-- The code point of a character, in 21 bits. -/
def charBits (c : Char) : List Bool := (List.range 21).map c.toNat.testBit

/-- A text, character by character. -/
def strBits : Str → List Bool
  | [] => [false]
  | c :: cs => true :: (charBits c ++ strBits cs)

/-- A sign and a number. -/
def intBits : Int → List Bool
  | .ofNat n => false :: natBits n
  | .negSucc n => true :: natBits n

/-- A rendering that can be read back from the front of a list. -/
def ReadsBack {α : Type} (f : α → List Bool) : Prop :=
  ∀ a b r s, f a ++ r = f b ++ s → a = b ∧ r = s

theorem natBits_readsBack : ReadsBack natBits := by
  intro a
  induction a with
  | zero =>
    intro b r s h
    cases b with
    | zero => exact ⟨rfl, (List.cons.inj h).2⟩
    | succ b => cases (List.cons.inj h).1
  | succ a ih =>
    intro b r s h
    cases b with
    | zero => cases (List.cons.inj h).1
    | succ b =>
      obtain ⟨rfl, hrest⟩ := ih b r s (List.cons.inj h).2
      exact ⟨rfl, hrest⟩

theorem charBits_injective {c d : Char} (h : charBits c = charBits d) : c = d := by
  have hlt : ∀ e : Char, e.toNat < 2 ^ 21 := fun e => by
    have := e.valid
    have hval : e.toNat = e.val.toNat := rfl
    simp only [UInt32.isValidChar, Nat.isValidChar] at this
    omega
  refine Char.toNat_inj.mp (Nat.eq_of_testBit_eq fun i => ?_)
  by_cases hi : i < 21
  · have hget := congrArg (fun l => l[i]?) h
    simpa [charBits, hi] using hget
  · have hpow : 2 ^ 21 ≤ 2 ^ i := Nat.pow_le_pow_right (by omega) (by omega)
    rw [Nat.testBit_lt_two_pow (by have := hlt c; omega),
      Nat.testBit_lt_two_pow (by have := hlt d; omega)]

theorem strBits_readsBack : ReadsBack strBits := by
  intro a
  induction a with
  | nil =>
    intro b r s h
    cases b with
    | nil => exact ⟨rfl, (List.cons.inj h).2⟩
    | cons d ds => cases (List.cons.inj h).1
  | cons c cs ih =>
    intro b r s h
    cases b with
    | nil => cases (List.cons.inj h).1
    | cons d ds =>
      have hbody : (charBits c ++ strBits cs) ++ r = (charBits d ++ strBits ds) ++ s :=
        (List.cons.inj h).2
      rw [List.append_assoc, List.append_assoc] at hbody
      obtain ⟨hchar, htail⟩ := List.append_inj hbody (by simp [charBits])
      obtain ⟨rfl, hrest⟩ := ih ds r s htail
      exact ⟨by rw [charBits_injective hchar], hrest⟩

theorem intBits_readsBack : ReadsBack intBits := by
  intro a b r s h
  cases a with
  | ofNat m =>
    cases b with
    | ofNat n =>
      obtain ⟨rfl, hrest⟩ := natBits_readsBack m n r s (List.cons.inj h).2
      exact ⟨rfl, hrest⟩
    | negSucc n => cases (List.cons.inj h).1
  | negSucc m =>
    cases b with
    | ofNat n => cases (List.cons.inj h).1
    | negSucc n =>
      obtain ⟨rfl, hrest⟩ := natBits_readsBack m n r s (List.cons.inj h).2
      exact ⟨rfl, hrest⟩

/-- The constructor of a value, as its rendering starts. -/
def Json.tag : Json → Nat
  | .null => 0
  | .bool _ => 1
  | .int _ => 2
  | .float _ => 3
  | .str _ => 4
  | .arr _ => 5
  | .obj _ => 6

/-- The rest of the rendering: nothing of what is nested. -/
def Json.body : Json → List Bool
  | .bool b => [b]
  | .int n => intBits n
  | .float text => strBits text
  | .str s => strBits s
  | _ => []

/-- Is the value neither a list nor a dictionary? -/
def Json.isFlat (j : Json) : Bool := j.tag < 5

/-- The items of a record. -/
def fieldsBits : List (Str × Json) → List Bool
  | [] => [false]
  | (k, x) :: xs => true :: (strBits k ++ (natBits x.tag ++ (x.body ++ fieldsBits xs)))

theorem body_readsBack {a b : Json} {r s : List Bool} (ha : a.isFlat = true) (htag : a.tag = b.tag)
    (hbody : a.body ++ r = b.body ++ s) : a = b ∧ r = s := by
  cases a with
  | null => cases b with
    | null => exact ⟨rfl, hbody⟩
    | _ => cases htag
  | bool x => cases b with
    | bool y =>
      obtain ⟨rfl, hrest⟩ := List.cons.inj hbody
      exact ⟨rfl, hrest⟩
    | _ => cases htag
  | int x => cases b with
    | int y =>
      obtain ⟨rfl, hrest⟩ := intBits_readsBack x y r s hbody
      exact ⟨rfl, hrest⟩
    | _ => cases htag
  | float x => cases b with
    | float y =>
      obtain ⟨rfl, hrest⟩ := strBits_readsBack x y r s hbody
      exact ⟨rfl, hrest⟩
    | _ => cases htag
  | str x => cases b with
    | str y =>
      obtain ⟨rfl, hrest⟩ := strBits_readsBack x y r s hbody
      exact ⟨rfl, hrest⟩
    | _ => cases htag
  | arr _ => cases ha
  | obj _ => cases ha

theorem fieldsBits_injective {xs ys : List (Str × Json)} (hflat : ∀ e ∈ xs, e.2.isFlat = true)
    (h : fieldsBits xs = fieldsBits ys) : xs = ys := by
  induction xs generalizing ys with
  | nil => cases ys with
    | nil => rfl
    | cons e ys => cases (List.cons.inj h).1
  | cons e xs ih => cases ys with
    | nil => cases (List.cons.inj h).1
    | cons e' ys =>
      obtain ⟨k, x⟩ := e
      obtain ⟨l, y⟩ := e'
      obtain ⟨rfl, hvalue⟩ := strBits_readsBack k l _ _ (List.cons.inj h).2
      obtain ⟨htag, hbody⟩ := natBits_readsBack _ _ _ _ hvalue
      obtain ⟨rfl, hrest⟩ := body_readsBack (hflat _ List.mem_cons_self) htag hbody
      rw [ih (fun e he => hflat e (List.mem_cons_of_mem _ he)) hrest]

/-- A rendering in binary. -/
def Loaded.bits : Loaded → List Bool
  | .invalid => [false]
  | .other => [true, false]
  | .object r => true :: true :: fieldsBits r.toList

/-- Is nothing nested in the value? -/
def Loaded.isFlat : Loaded → Bool
  | .object r => r.toList.all fun e => e.2.isFlat
  | _ => true

/-- The digest of a value: its rendering, in digits. -/
def render (v : Loaded) : Str := v.bits.map fun b => if b then '1' else '0'

theorem loadedBits_injective {a b : Loaded} (hflat : a.isFlat = true) (h : a.bits = b.bits) :
    a = b := by
  cases a with
  | invalid => cases b with
    | invalid => rfl
    | _ => cases (List.cons.inj h).1
  | other => cases b with
    | other => rfl
    | invalid => cases (List.cons.inj h).1
    | object r => cases (List.cons.inj (List.cons.inj h).2).1
  | object r => cases b with
    | invalid => cases (List.cons.inj h).1
    | other => cases (List.cons.inj (List.cons.inj h).2).1
    | object r' =>
      have hlist := fieldsBits_injective (List.all_eq_true.mp hflat)
        (List.cons.inj (List.cons.inj h).2).2
      rw [← SortedMap.insertPairs_toList r, hlist, SortedMap.insertPairs_toList]

/-- **The rendering determines a flat value.** -/
theorem render_injective {a b : Loaded} (hflat : a.isFlat = true) (h : render a = render b) :
    a = b := by
  refine loadedBits_injective hflat (List.map_injective_iff.mpr ?_ h)
  intro x y hxy
  cases x <;> cases y <;> first | rfl | exact absurd hxy (by decide)

/-! ## The runtime -/

/-- A digest that keeps hexadecimal texts of full length. -/
def plainIndex (text : Str) : Str :=
  ((text.map fun c => if isHexDigit c then c else '0') ++ List.replicate 64 '0').take 64

theorem plainIndex_hex (text : Str) : isHex 64 (plainIndex text) = true := by
  have hdigit : ∀ c ∈ (text.map fun c => if isHexDigit c then c else '0') ++
      List.replicate 64 '0', isHexDigit c = true := by
    intro c hc
    obtain hc | hc := List.mem_append.mp hc
    · obtain ⟨d, _, rfl⟩ := List.mem_map.mp hc
      split
      · assumption
      · decide
    · rw [List.eq_of_mem_replicate hc]
      decide
  rw [isHex, Bool.and_eq_true, decide_eq_true_iff, List.all_eq_true]
  refine ⟨?_, fun c hc => hdigit c (List.mem_of_mem_take hc)⟩
  simp [plainIndex]

/-- `ipaddress.ip_interface(text).ip`. -/
def plainInterface (text : Str) : Option IpAddress :=
  match Prefix4.parse text with
  | some p => some (.v4 p.addr)
  | none => (Prefix4.parseAddr text).map fun a => .v4 a

/-- Values as their own bytes, passwords as their own hashes. -/
def plainRuntime : Runtime Loaded where
  codec :=
    { unmarshalMutation := .ok
      unmarshalRoute := fun _ => none
      unmarshalNode := fun _ => none
      sha256Hex := render
      dataLen := fun _ => 0 }
  dumps := .object
  loads := id
  strContainer _ := []
  int
    | .int n => .ok n
    | _ => .error .type
  sha256Text := plainIndex
  isHexInt text := text ≠ [] && text.all isHexDigit
  passwordVerify encoded password := encoded = password
  needsRehash encoded := encoded = "old"
  verifyProof _ _ _ := .ok ()
  b64Length text := some text.length
  validWireguardKey text := text ≠ []
  ipNetwork4 := Prefix4.parse
  ipInterface := plainInterface
  ipText n := Prefix4.addrText (n % 2 ^ 32)
  loads_dumps _ := rfl
  sha256Text_hex := plainIndex_hex
  sha256Hex_lower v := by
    unfold toLower render
    rw [List.map_map]
    refine List.map_congr_left fun b _ => ?_
    cases b <;> decide
  sha256Hex_ne v := by
    unfold render
    cases v <;> simp [Loaded.bits]
  ipText_plain n h := by
    obtain hdigit | hdot := Prefix4.mem_addrText (Nat.mod_lt n (by decide)) h
    · exact absurd hdigit (by decide)
    · exact absurd hdot (by decide)

theorem plainRuntime_ipNetwork4 : plainRuntime.ipNetwork4 = Prefix4.parse := rfl

theorem plainRuntime_ipInterface : plainRuntime.ipInterface = plainInterface := rfl

theorem isPySpace_of_digit {c : Char} (h : c.isDigit = true ∨ c = '.' ∨ c = '/') :
    isPySpace c = false := by
  obtain h | rfl | rfl := h
  · exact isPySpace_of_hex (by rw [isHexDigit, h]; rfl)
  · decide
  · decide

/-! ## Runs without collisions -/

/-- Are all committed values flat? -/
def flatFiles (content : Content Loaded) : Bool :=
  content.canonical.toList.all fun file => file.2.isFlat

theorem noCollision_of_flat {Job O α : Type}
    {c : Pool (World Loaded) Job (Req Loaded) Ans PyError α}
    (h : flatFiles c.world.content = true) (m : Move Job O) : NoCollision plainRuntime c m :=
  fun _ _ _ _ _ _ hv _ hsame =>
    render_injective (List.all_eq_true.mp h _ (SortedMap.mem_toList.mpr hv)) hsame

/-! ## Records for concrete runs -/

namespace Plain

/-- The id of the one User. -/
def userId : Str := List.replicate 32 'b'

/-- The id of the one Device. -/
def deviceId : Str := List.replicate 32 'd'

/-- A credential, which is its own index. -/
def token : Str := List.replicate 64 'a'

/-- An enabled User. -/
def user : Dir × Str × Record :=
  (.users, userId, .of [("id", .str userId), ("enabled", .bool true)])

/-- An active Device of the User. -/
def device : Dir × Str × Record :=
  (.devices, deviceId, .of [("id", .str deviceId), ("user_id", .str userId),
    ("enabled", .bool true)])

/-- The access credential of the Device. -/
def access : Dir × Str × Record :=
  (.identityAccess, token, .of [("user_id", .str userId), ("device_id", .str deviceId),
    ("expires_at", .int 9)])

/-- A refresh credential of the Device. -/
def refresh (index : Str) (revokedAt : Json) : Dir × Str × Record :=
  (.refresh, index, .of [("user_id", .str userId), ("device_id", .str deviceId),
    ("family_id", .str "family"), ("expires_at", .int 9), ("revoked_at", revokedAt)])

/-- Every mutation is delivered, every file present. -/
def usual : Oracle := {}

end Plain

end Bpc.Deploy
