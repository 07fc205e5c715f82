import DistributedRL.Data.Dict
import DistributedRL.Data.NDArray

/-!
# Prefix codes

Self-delimiting encodings into bytes. A code decodes one value off the front of a byte string and
returns the rest; decoding undoes encoding, and only encodings decode. So no proper prefix of an
encoding is one.
-/

namespace DistributedRL

/-- A self-delimiting code with its two laws. -/
structure PrefixCode (β : Type*) where
  encode : β → List UInt8
  decode : List UInt8 → Option (β × List UInt8)
  decode_encode : ∀ x r, decode (encode x ++ r) = some (x, r)
  encode_decode : ∀ bs x r, decode bs = some (x, r) → bs = encode x ++ r

namespace PrefixCode

variable {β γ : Type*}

/-- Decode a byte string that holds one value and nothing else. -/
def decodeAll (c : PrefixCode β) (bs : List UInt8) : Option β :=
  match c.decode bs with
  | some (x, []) => some x
  | _ => none

lemma decodeAll_encode (c : PrefixCode β) (x : β) : c.decodeAll (c.encode x) = some x := by
  have := c.decode_encode x []
  simp only [List.append_nil] at this
  simp [decodeAll, this]

/-- A proper prefix of an encoding is not an encoding. -/
lemma decodeAll_cut (c : PrefixCode β) {x : β} {pre rest : List UInt8}
    (h : pre ++ rest = c.encode x) (hne : rest ≠ []) : c.decodeAll pre = none := by
  cases hd : c.decodeAll pre with
  | none => rfl
  | some y =>
    have hy : c.decode pre = some (y, []) := by
      simp only [decodeAll] at hd
      split at hd
      · next z hz => cases hd; exact hz
      · cases hd
    have hpre : pre = c.encode y := by simpa using c.encode_decode _ _ _ hy
    have hx := c.decode_encode x []
    rw [List.append_nil, ← h, hpre, c.decode_encode y rest] at hx
    cases hx
    exact absurd rfl hne

/-! ### Combinators -/

/-- The code of a one-element type. -/
def unit : PrefixCode Unit where
  encode _ := []
  decode bs := some ((), bs)
  decode_encode _ _ := rfl
  encode_decode bs x r h := by simp_all

/-- Transport along an injection whose range is decidable. -/
def comap (c : PrefixCode β) (f : γ → β) (g : β → Option γ) (hgf : ∀ y, g (f y) = some y)
    (hfg : ∀ x y, g x = some y → f y = x) : PrefixCode γ where
  encode y := c.encode (f y)
  decode bs := (c.decode bs).bind fun p => (g p.1).map fun y => (y, p.2)
  decode_encode y r := by simp [c.decode_encode, hgf]
  encode_decode bs y r h := by
    simp only [Option.bind_eq_some_iff, Option.map_eq_some_iff, Prod.mk.injEq] at h
    obtain ⟨⟨x, r'⟩, hx, y', hy, rfl, rfl⟩ := h
    rw [hfg _ _ hy]
    exact c.encode_decode _ _ _ hx

/-- Pairs, one component after the other. -/
def prod (c : PrefixCode β) (d : PrefixCode γ) : PrefixCode (β × γ) where
  encode p := c.encode p.1 ++ d.encode p.2
  decode bs := (c.decode bs).bind fun p => (d.decode p.2).map fun q => ((p.1, q.1), q.2)
  decode_encode p r := by simp [c.decode_encode, d.decode_encode]
  encode_decode bs p r h := by
    simp only [Option.bind_eq_some_iff, Option.map_eq_some_iff, Prod.mk.injEq] at h
    obtain ⟨⟨x, r₁⟩, hx, ⟨y, r₂⟩, hy, rfl, rfl⟩ := h
    dsimp only at hy ⊢
    rw [c.encode_decode _ _ _ hx, d.encode_decode _ _ _ hy, List.append_assoc]

/-- A tag byte, then the chosen alternative. -/
def sum (c : PrefixCode β) (d : PrefixCode γ) : PrefixCode (β ⊕ γ) where
  encode
    | .inl x => 0 :: c.encode x
    | .inr y => 1 :: d.encode y
  decode
    | [] => none
    | b :: bs =>
      if b = 0 then (c.decode bs).map fun p => (.inl p.1, p.2)
      else if b = 1 then (d.decode bs).map fun p => (.inr p.1, p.2)
      else none
  decode_encode
    | .inl x, r => by simp [c.decode_encode]
    | .inr y, r => by simp [d.decode_encode]
  encode_decode bs z r h := by
    cases bs with
    | nil => simp at h
    | cons b bs =>
      simp only at h
      split_ifs at h with h₀ h₁
      · simp only [Option.map_eq_some_iff, Prod.mk.injEq] at h
        obtain ⟨⟨x, r'⟩, hx, rfl, rfl⟩ := h
        rw [h₀, c.encode_decode _ _ _ hx, List.cons_append]
      · simp only [Option.map_eq_some_iff, Prod.mk.injEq] at h
        obtain ⟨⟨y, r'⟩, hy, rfl, rfl⟩ := h
        rw [h₁, d.encode_decode _ _ _ hy, List.cons_append]

/-- Read a number in unary. -/
def decodeUnary : List UInt8 → Option (ℕ × List UInt8)
  | [] => none
  | b :: bs =>
    if b = 0 then some (0, bs)
    else if b = 1 then (decodeUnary bs).map fun p => (p.1 + 1, p.2)
    else none

lemma decodeUnary_replicate (n : ℕ) (r : List UInt8) :
    decodeUnary (List.replicate n 1 ++ 0 :: r) = some (n, r) := by
  induction n with
  | zero => simp [decodeUnary]
  | succ n ih => simp [List.replicate_succ, decodeUnary, ih]

lemma eq_of_decodeUnary : ∀ {bs : List UInt8} {n : ℕ} {r : List UInt8},
    decodeUnary bs = some (n, r) → bs = List.replicate n 1 ++ 0 :: r
  | [], n, r, h => by simp [decodeUnary] at h
  | b :: bs, n, r, h => by
    simp only [decodeUnary] at h
    split_ifs at h with h₀ h₁
    · cases h; simp [h₀]
    · simp only [Option.map_eq_some_iff, Prod.mk.injEq] at h
      obtain ⟨⟨m, r'⟩, hm, rfl, rfl⟩ := h
      rw [h₁, eq_of_decodeUnary hm, List.replicate_succ, List.cons_append]

/-- Natural numbers in unary. -/
def nat : PrefixCode ℕ where
  encode n := List.replicate n 1 ++ [0]
  decode := decodeUnary
  decode_encode n r := by simpa using decodeUnary_replicate n r
  encode_decode bs n r h := by simpa using eq_of_decodeUnary h

/-- Decode `n` values. -/
def decodeMany (c : PrefixCode β) : ℕ → List UInt8 → Option (List β × List UInt8)
  | 0, bs => some ([], bs)
  | n + 1, bs =>
    (c.decode bs).bind fun p => (decodeMany c n p.2).map fun q => (p.1 :: q.1, q.2)

lemma decodeMany_flatMap (c : PrefixCode β) (r : List UInt8) : ∀ xs : List β,
    c.decodeMany xs.length (xs.flatMap c.encode ++ r) = some (xs, r)
  | [] => rfl
  | x :: xs => by
    simp [decodeMany, c.decode_encode, decodeMany_flatMap c r xs, List.append_assoc]

lemma eq_of_decodeMany (c : PrefixCode β) : ∀ {n : ℕ} {bs r : List UInt8} {xs : List β},
    c.decodeMany n bs = some (xs, r) → xs.length = n ∧ bs = xs.flatMap c.encode ++ r
  | 0, bs, r, xs, h => by
    simp only [decodeMany, Option.some.injEq, Prod.mk.injEq] at h
    obtain ⟨rfl, rfl⟩ := h
    simp
  | n + 1, bs, r, xs, h => by
    simp only [decodeMany, Option.bind_eq_some_iff, Option.map_eq_some_iff, Prod.mk.injEq] at h
    obtain ⟨⟨x, r₁⟩, hx, ⟨ys, r₂⟩, hys, rfl, rfl⟩ := h
    obtain ⟨hlen, hbs⟩ := eq_of_decodeMany c hys
    refine ⟨by simp [hlen], ?_⟩
    dsimp only at hbs ⊢
    rw [c.encode_decode _ _ _ hx, hbs, List.flatMap_cons, List.append_assoc]

/-- Lists, after their length. -/
def list (c : PrefixCode β) : PrefixCode (List β) where
  encode xs := nat.encode xs.length ++ xs.flatMap c.encode
  decode bs := (nat.decode bs).bind fun p => c.decodeMany p.1 p.2
  decode_encode xs r := by
    simp [List.append_assoc, nat.decode_encode, decodeMany_flatMap]
  encode_decode bs xs r h := by
    simp only [Option.bind_eq_some_iff] at h
    obtain ⟨⟨n, r₁⟩, hn, hxs⟩ := h
    obtain ⟨hlen, hbs⟩ := eq_of_decodeMany c hxs
    dsimp only at hlen hbs
    rw [nat.encode_decode _ _ _ hn, hbs, hlen, List.append_assoc]

/-! ### Scalars, names and containers -/

/-- Integers by sign and magnitude. -/
def int : PrefixCode ℤ :=
  (sum nat nat).comap (fun | .ofNat n => .inl n | .negSucc n => .inr n)
    (fun | .inl n => some (.ofNat n) | .inr n => some (.negSucc n))
    (fun z => by cases z <;> rfl) (fun z y h => by cases z <;> cases h <;> rfl)

/-- Rationals in lowest terms. -/
def rat : PrefixCode ℚ :=
  (prod int nat).comap (fun q => (q.num, q.den))
    (fun p => if (mkRat p.1 p.2).num = p.1 ∧ (mkRat p.1 p.2).den = p.2 then some (mkRat p.1 p.2)
      else none)
    (fun q => by simp [Rat.mkRat_self])
    (fun p q h => by
      split_ifs at h with hp
      cases h
      exact Prod.ext hp.1 hp.2)

/-- Characters by their code point. -/
def char : PrefixCode Char :=
  nat.comap Char.toNat (fun n => if (Char.ofNat n).toNat = n then some (Char.ofNat n) else none)
    (fun c => by simp [Char.ofNat_toNat])
    (fun n c h => by
      split_ifs at h with hn
      cases h
      exact hn)

/-- Strings as lists of characters. -/
def string : PrefixCode String :=
  (list char).comap String.toList (fun cs => some (String.ofList cs))
    (fun s => by simp) (fun cs s h => by cases h; simp)

/-- Dictionaries by their entries. -/
def dict {κ ν : Type*} [DecidableEq κ] (c : PrefixCode κ) (d : PrefixCode ν) :
    PrefixCode (Dict κ ν) :=
  (list (prod c d)).comap Dict.entries
    (fun es => if h : (es.map Prod.fst).Nodup then some ⟨es, h⟩ else none)
    (fun x => by simp [x.nodup])
    (fun es x h => by
      split_ifs at h with hn
      cases h
      rfl)

/-- Arrays by shape and data. -/
def ndarray {α : Type*} (c : PrefixCode α) : PrefixCode (NDArray α) :=
  (prod (list nat) (list c)).comap (fun a => (a.shape, a.data))
    (fun p => if h : p.2.length = p.1.prod then some ⟨p.1, p.2, h⟩ else none)
    (fun a => by simp [a.length_data])
    (fun p a h => by
      split_ifs at h with hl
      cases h
      rfl)

end PrefixCode

end DistributedRL
