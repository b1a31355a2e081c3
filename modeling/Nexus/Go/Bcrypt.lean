import Nexus.Go.Bytes
import Nexus.Go.Http
import Nexus.Lib.Base64
import Nexus.Lib.BigEndian

/-! Package `golang.org/x/crypto/bcrypt`. The expensive key derivation is the
parameter `derive`, from password, cost and salt to 23 bytes. A comparison
reports the costs of the derivations it performs next to its result. The
details of the package's error texts are left out. -/

set_option autoImplicit false

namespace Nexus.Go.Bcrypt

def minCost : Nat := 4
def maxCost : Nat := 31
def defaultCost : Nat := 10

def minHashSize : Nat := 59
def encodedSaltSize : Nat := 22
def encodedHashSize : Nat := 31
def maxSaltSize : Nat := 16

/-! ## Encoding -/

def alphabet : List UInt8 :=
  ("./ABCDEFGHIJKLMNOPQRSTUVWXYZabcdefghijklmnopqrstuvwxyz0123456789".toList).map asciiByte

def encodeValues : List UInt8 → List UInt8
  | [] => []
  | [a] => [a >>> 2, (a <<< 4) &&& 0x3F]
  | [a, b] => [a >>> 2, ((a <<< 4) ||| (b >>> 4)) &&& 0x3F, (b <<< 2) &&& 0x3F]
  | a :: b :: c :: rest =>
      [a >>> 2, ((a <<< 4) ||| (b >>> 4)) &&& 0x3F, ((b <<< 2) ||| (c >>> 6)) &&& 0x3F,
        c &&& 0x3F] ++ encodeValues rest

/-- `base64Encode`, which trims the padding. -/
def base64Encode (src : List UInt8) : List UInt8 :=
  (encodeValues src).map fun value => alphabet.getD value.toNat 0x2E

def decodeSymbol (symbol : UInt8) : Option UInt8 :=
  let index := alphabet.idxOf symbol
  if index < alphabet.length then some (UInt8.ofNat index) else none

def packValues : List UInt8 → List UInt8
  | [] | [_] => []
  | [a, b] => [(a <<< 2) ||| (b >>> 4)]
  | [a, b, c] => [(a <<< 2) ||| (b >>> 4), (b <<< 4) ||| (c >>> 2)]
  | a :: b :: c :: d :: rest =>
      [(a <<< 2) ||| (b >>> 4), (b <<< 4) ||| (c >>> 2), (c <<< 6) ||| d] ++ packValues rest

/-- `base64Decode` of a salt, to whose 22 symbols it appends `==`. Line breaks
are dropped, so the symbols must end in a quantum of two. -/
def base64Decode (salt : List UInt8) : Option (List UInt8) :=
  let symbols := salt.filter fun byte => byte != 0x0A && byte != 0x0D
  match symbols.mapM decodeSymbol with
  | none => none
  | some values => if values.length % 4 = 2 then some (packValues values) else none

/-! ## Hashes -/

inductive Failure where
  | hashTooShort
  | invalidHashPrefix
  | hashVersionTooNew
  | invalidCost
  | invalidSalt
  | passwordTooLong
  | mismatchedHashAndPassword
  deriving DecidableEq

def Failure.text : Failure → String
  | hashTooShort => "crypto/bcrypt: hashedSecret too short to be a bcrypted password"
  | invalidHashPrefix => "crypto/bcrypt: bcrypt hashes must start with '$'"
  | hashVersionTooNew => "crypto/bcrypt: bcrypt algorithm version is newer than current version"
  | invalidCost => "crypto/bcrypt: cost is outside allowed inclusive range"
  | invalidSalt => "illegal base64 data"
  | passwordTooLong => "bcrypt: password length exceeds 72 bytes"
  | mismatchedHashAndPassword =>
      "crypto/bcrypt: hashedPassword is not the hash of the given password"

structure Hashed where
  major : UInt8
  minor : Option UInt8
  cost : Nat
  salt : List UInt8
  hash : List UInt8

/-- The version of a hash and what follows its second `$`. -/
def decodeVersion : List UInt8 → Except Failure (UInt8 × Option UInt8 × List UInt8)
  | dollar :: major :: minor :: rest =>
      if dollar ≠ 0x24 then .error .invalidHashPrefix
      else if major > 0x32 then .error .hashVersionTooNew
      else if minor ≠ 0x24 then .ok (major, some minor, rest.drop 1)
      else .ok (major, none, rest)
  | _ => .error .hashTooShort

def checkCost (cost : Int) : Except Failure Nat :=
  if cost < minCost ∨ maxCost < cost then .error .invalidCost else .ok cost.toNat

def decodeCost (sbytes : List UInt8) : Except Failure (Nat × List UInt8) :=
  match atoi (stringOfBytes (sbytes.take 2)) with
  | none => .error .invalidCost
  | some cost =>
      match checkCost cost.toInt with
      | .error failure => .error failure
      | .ok cost => .ok (cost, sbytes.drop 3)

def newFromHash (hashedSecret : List UInt8) : Except Failure Hashed :=
  if hashedSecret.length < minHashSize then .error .hashTooShort
  else
    match decodeVersion hashedSecret with
    | .error failure => .error failure
    | .ok (major, minor, rest) =>
        match decodeCost rest with
        | .error failure => .error failure
        | .ok (cost, rest) =>
            .ok {
              major := major
              minor := minor
              cost := cost
              salt := rest.take encodedSaltSize
              hash := rest.drop encodedSaltSize }

/-! ## Passwords -/

/-- A comparison, with the cost of every key derivation on its way. -/
structure Comparison where
  derivations : List Nat
  result : Except Failure Unit

variable (derive : List UInt8 → Nat → List UInt8 → Vector UInt8 23)

/-- The encoded hash under an encoded salt. A salt that does not decode is
rejected before the derivation. -/
def bcrypt (password : List UInt8) (cost : Nat) (salt : List UInt8) : Option (List UInt8) :=
  match base64Decode salt with
  | none => none
  | some csalt => some (base64Encode (derive password cost csalt).toList)

def compareHashAndPassword (hashedPassword password : List UInt8) : Comparison :=
  match newFromHash hashedPassword with
  | .error failure => ⟨[], .error failure⟩
  | .ok hashed =>
      match bcrypt derive password hashed.cost hashed.salt with
      | none => ⟨[], .error .invalidSalt⟩
      | some otherHash =>
          ⟨[hashed.cost],
            if hashed.hash.take encodedHashSize = otherHash then .ok ()
            else .error .mismatchedHashAndPassword⟩

/-- The salt is read from the random source, which never runs dry; a list
stands for a stream that ends in zeros. -/
def readSalt (random : List UInt8) : Vector UInt8 maxSaltSize :=
  .ofFn fun i => random.getD i 0

def hashBytes (cost : Nat) (salt hash : List UInt8) : List UInt8 :=
  [0x24, 0x32, 0x61, 0x24, UInt8.ofNat (0x30 + cost / 10), UInt8.ofNat (0x30 + cost % 10),
    0x24] ++ salt ++ hash

def generateFromPassword (random password : List UInt8) (cost : Nat) :
    Except Failure (List UInt8) :=
  if password.length > 72 then .error .passwordTooLong
  else
    match checkCost (if cost < minCost then defaultCost else cost : Nat) with
    | .error failure => .error failure
    | .ok cost =>
        let salt := base64Encode (readSalt random).toList
        match bcrypt derive password cost salt with
        | none => .error .invalidSalt
        | some hash => .ok (hashBytes cost salt hash)

/-! ## Generated hashes -/

theorem length_encodeValues (src : List UInt8) :
    (encodeValues src).length = (4 * src.length + 2) / 3 := by
  induction src using encodeValues.induct with
  | case1 => rfl
  | case2 a => simp [encodeValues]
  | case3 a b => simp [encodeValues]
  | case4 a b c rest ih =>
      simp only [encodeValues, List.length_append, List.length_cons, List.length_nil, ih]
      omega

theorem length_base64Encode (src : List UInt8) :
    (base64Encode src).length = (4 * src.length + 2) / 3 := by
  rw [base64Encode, List.length_map, length_encodeValues]

theorem forall_alphabet :
    ∀ letter ∈ alphabet, letter < 0x80 ∧ letter ≠ 0x0A ∧ letter ≠ 0x0D := by
  decide +kernel

theorem base64Encode_ascii {src : List UInt8} {symbol : UInt8}
    (member : symbol ∈ base64Encode src) : symbol < 0x80 := by
  obtain ⟨value, _, rfl⟩ := List.mem_map.mp member
  rw [List.getD_eq_getElem?_getD]
  cases found : alphabet[value.toNat]? with
  | none => decide
  | some letter => exact (forall_alphabet letter (List.mem_of_getElem? found)).1

private theorem atoi_cost : ∀ cost < 32,
    atoi (stringOfBytes [UInt8.ofNat (0x30 + cost / 10), UInt8.ofNat (0x30 + cost % 10)]) =
      some (Int64.ofNat cost) := by
  decide

private theorem checkCost_valid {cost : Nat} (low : minCost ≤ cost) (high : cost ≤ maxCost) :
    checkCost cost = .ok cost := by
  unfold checkCost
  rw [if_neg (by omega)]
  rfl

/-- A hash the package writes is one it can read. -/
theorem newFromHash_hashBytes {cost : Nat} (low : minCost ≤ cost) (high : cost ≤ maxCost)
    {salt hash : List UInt8} (saltSize : salt.length = encodedSaltSize)
    (hashSize : hash.length = encodedHashSize) :
    newFromHash (hashBytes cost salt hash) = .ok {
      major := 0x32
      minor := some 0x61
      cost := cost
      salt := salt
      hash := hash } := by
  have small : cost < 32 := Nat.lt_succ_of_le high
  have size : ¬ (hashBytes cost salt hash).length < minHashSize := by
    simp only [hashBytes, List.length_append, List.length_cons, List.length_nil, saltSize,
      hashSize]
    decide
  have value : (Int64.ofNat cost).toInt = cost := by
    rw [Int64.toInt_ofNat_of_lt (by omega)]
  have decoded : decodeCost (UInt8.ofNat (0x30 + cost / 10) :: UInt8.ofNat (0x30 + cost % 10) ::
      0x24 :: (salt ++ hash)) = .ok (cost, salt ++ hash) := by
    simp only [decodeCost, List.take_succ_cons, List.take_zero, atoi_cost cost small, value,
      checkCost_valid low high, List.drop_succ_cons, List.drop_zero]
  have version : decodeVersion (hashBytes cost salt hash) = .ok (0x32, some 0x61,
      UInt8.ofNat (0x30 + cost / 10) :: UInt8.ofNat (0x30 + cost % 10) :: 0x24 ::
        (salt ++ hash)) := by
    simp only [hashBytes, List.cons_append, List.nil_append, decodeVersion]
    rfl
  unfold newFromHash
  rw [if_neg size, version]
  dsimp only
  rw [decoded]
  dsimp only
  rw [← saltSize, List.take_left, List.drop_left]

variable {derive}

theorem generateFromPassword_ok {random password hashed : List UInt8} {cost : Nat}
    (low : minCost ≤ cost) (high : cost ≤ maxCost)
    (generated : generateFromPassword derive random password cost = .ok hashed) :
    ∃ csalt, base64Decode (base64Encode (readSalt random).toList) = some csalt ∧
      hashed = hashBytes cost (base64Encode (readSalt random).toList)
        (base64Encode (derive password cost csalt).toList) := by
  unfold generateFromPassword at generated
  split at generated
  · cases generated
  rw [if_neg (Nat.not_lt.mpr low), checkCost_valid low high] at generated
  dsimp only at generated
  cases decodes : base64Decode (base64Encode (readSalt random).toList) with
  | none =>
      simp only [bcrypt, decodes] at generated
      cases generated
  | some csalt =>
      simp only [bcrypt, decodes] at generated
      cases generated
      exact ⟨csalt, rfl, rfl⟩

/-- Comparing a password with a hash the package generated derives one key, at
the cost of the hash. -/
theorem derivations_of_generated {random password hashed : List UInt8} {cost : Nat}
    (low : minCost ≤ cost) (high : cost ≤ maxCost)
    (generated : generateFromPassword derive random password cost = .ok hashed)
    (candidate : List UInt8) :
    (compareHashAndPassword derive hashed candidate).derivations = [cost] := by
  obtain ⟨csalt, decodes, rfl⟩ := generateFromPassword_ok low high generated
  have saltSize : (base64Encode (readSalt random).toList).length = encodedSaltSize := by
    rw [length_base64Encode, Vector.length_toList]
    rfl
  have hashSize : (base64Encode (derive password cost csalt).toList).length =
      encodedHashSize := by
    rw [length_base64Encode, Vector.length_toList]
    rfl
  simp only [compareHashAndPassword, newFromHash_hashBytes low high saltSize hashSize, bcrypt,
    decodes]

theorem generated_ascii {random password hashed : List UInt8} {cost : Nat}
    (low : minCost ≤ cost) (high : cost ≤ maxCost)
    (generated : generateFromPassword derive random password cost = .ok hashed) :
    ∀ byte ∈ hashed, byte < 0x80 := by
  obtain ⟨csalt, _, rfl⟩ := generateFromPassword_ok low high generated
  have digits : ∀ number < 32, UInt8.ofNat (0x30 + number / 10) < 0x80 ∧
      UInt8.ofNat (0x30 + number % 10) < 0x80 := by
    decide
  have costDigits := digits cost (Nat.lt_succ_of_le high)
  intro byte member
  simp only [hashBytes, List.mem_append, List.mem_cons, List.not_mem_nil, or_false] at member
  rcases member with ((rfl | rfl | rfl | rfl | rfl | rfl | rfl) | listed) | listed
  · decide
  · decide
  · decide
  · decide
  · exact costDigits.1
  · exact costDigits.2
  · decide
  · exact base64Encode_ascii listed
  · exact base64Encode_ascii listed

/-! ## Passwords that can be hashed -/

theorem decodeSymbol_alphabet {value : UInt8} (small : value.toNat < 64) :
    decodeSymbol (alphabet.getD value.toNat 0x2E) = some value := by
  have checked : ∀ n < 64, decodeSymbol (alphabet.getD n 0x2E) = some (UInt8.ofNat n) := by
    decide +kernel
  have listed := checked value.toNat small
  rwa [UInt8.ofNat_toNat] at listed

/-- The low bits of one byte before the high bits of the next, of which a mask
keeps six. -/
theorem toNat_joined (a b : UInt8) :
    (((a <<< 4) ||| (b >>> 4)) &&& 0x3F).toNat = a.toNat % 4 * 16 + b.toNat / 16 ∧
      (((a <<< 2) ||| (b >>> 6)) &&& 0x3F).toNat = a.toNat % 16 * 4 + b.toNat / 64 := by
  have second := b.toNat_lt
  have masked (n : Nat) : n &&& 63 = n % 64 := Nat.and_two_pow_sub_one_eq_mod n 6
  simp only [UInt8.toNat_or, UInt8.toNat_and, UInt8.toNat_shiftLeft, UInt8.toNat_shiftRight,
    UInt8.reduceToNat, Nat.reduceMod, Nat.shiftLeft_eq, Nat.shiftRight_eq_div_pow, Nat.reducePow,
    masked]
  rw [Lib.BigEndian.or_of_disjoint (b.toNat / 16) 4 (by omega) (by omega),
    Lib.BigEndian.or_of_disjoint (b.toNat / 64) 2 (by omega) (by omega)]
  omega

/-- The package has its own alphabet, but the values are those of Base64. -/
theorem map_encodeValues (src : List UInt8) :
    (encodeValues src).map UInt8.toNat = Lib.Base64.values src := by
  have high (a : UInt8) : (a >>> 2).toNat = a.toNat / 4 := by
    simp [UInt8.toNat_shiftRight, Nat.shiftRight_eq_div_pow]
  have last (a : UInt8) : ((a <<< 4) &&& 0x3F).toNat = a.toNat % 4 * 16 ∧
      ((a <<< 2) &&& 0x3F).toNat = a.toNat % 16 * 4 := by
    simpa using toNat_joined a 0
  induction src using encodeValues.induct with
  | case1 => rfl
  | case2 a => simp only [encodeValues, Lib.Base64.values, List.map_cons, List.map_nil, high, last]
  | case3 a b =>
      simp only [encodeValues, Lib.Base64.values, List.map_cons, List.map_nil, high, last,
        toNat_joined]
  | case4 a b c rest ih =>
      have low : (c &&& 0x3F).toNat = c.toNat % 64 := by
        simpa using Nat.and_two_pow_sub_one_eq_mod c.toNat 6
      simp only [encodeValues, Lib.Base64.values, List.cons_append, List.nil_append,
        List.map_cons, high, low, toNat_joined, ih]

theorem encodeValues_small {src : List UInt8} {value : UInt8}
    (listed : value ∈ encodeValues src) : value.toNat < 64 := by
  apply Lib.Base64.values_small src
  rw [← map_encodeValues]
  exact List.mem_map_of_mem listed

/-- The decoder finds the symbols of the encoder again. -/
theorem base64Decode_encode {src : List UInt8} (single : src.length % 3 = 1) :
    base64Decode (base64Encode src) = some (packValues (encodeValues src)) := by
  have kept : (base64Encode src).filter (fun byte => byte != 0x0A && byte != 0x0D) =
      base64Encode src := by
    rw [List.filter_eq_self]
    intro byte member
    obtain ⟨value, listed, rfl⟩ := List.mem_map.mp member
    have small : value.toNat < alphabet.length := encodeValues_small listed
    have clean := (forall_alphabet _ (List.getElem_mem small)).2
    simp [List.getD_eq_getElem?_getD, List.getElem?_eq_getElem small, clean]
  have read : (base64Encode src).mapM decodeSymbol = some (encodeValues src) := by
    have small : ∀ value ∈ encodeValues src, value.toNat < 64 := fun _ => encodeValues_small
    rw [base64Encode]
    generalize encodeValues src = values at small
    induction values with
    | nil => rfl
    | cons value values ih =>
        rw [List.forall_mem_cons] at small
        rw [List.map_cons, List.mapM_cons, decodeSymbol_alphabet small.1, ih small.2]
        rfl
  have counted : (encodeValues src).length % 4 = 2 := by
    rw [length_encodeValues]
    omega
  simp only [base64Decode, kept, read, counted, if_true]

theorem generateFromPassword_short {random password : List UInt8} {cost : Nat}
    (low : minCost ≤ cost) (high : cost ≤ maxCost) (short : password.length ≤ 72) :
    ∃ hashed, generateFromPassword derive random password cost = .ok hashed := by
  have drawn : (readSalt random).toList.length % 3 = 1 := by
    rw [Vector.length_toList]
    rfl
  have derived : bcrypt derive password cost (base64Encode (readSalt random).toList) =
      some (base64Encode (derive password cost
        (packValues (encodeValues (readSalt random).toList))).toList) := by
    simp only [bcrypt, base64Decode_encode drawn]
  unfold generateFromPassword
  rw [if_neg (Nat.not_lt.mpr short), if_neg (Nat.not_lt.mpr low), checkCost_valid low high]
  dsimp only
  rw [derived]
  exact ⟨_, rfl⟩

theorem generateFromPassword_long {random password : List UInt8} {cost : Nat}
    (long : 72 < password.length) :
    generateFromPassword derive random password cost = .error .passwordTooLong :=
  if_pos long

end Nexus.Go.Bcrypt
