import Mathlib.Data.List.Basic
import Mathlib.Tactic.Ring
/-!
# Decoding fields at a moving offset

The usual hand-written decoder: a buffer, an offset, and one field after another, each field
decoder given the buffer from the offset on and saying how many bytes it took. `At` follows such a
decoder through an encoding: the offset is inside the buffer and `rest` is what is left there.

* `At.field_bind` — a decoder that reads back the encoding in front of it moves `At` past it.
* `Takes` — the same for a reader of several fields, which may fail: what it takes and what it
  answers, put together from its parts. `Answers` allows it to leave a part.
* `fromLe_toLe`, `toLe_fromLe` — little-endian integers of a fixed width, both ways.
-/

namespace FieldDecode

abbrev Bytes := List UInt8

/-- What a field decoder found, and the number of bytes it took. -/
structure DecodeResult (α : Type) where
  result : α
  offsetIncrement : Nat
deriving DecidableEq, Repr

/-- `&bytes[a..b]`; `none` is the index panic. -/
def slice (bytes : Bytes) (a b : Nat) : Option Bytes :=
  if a ≤ b ∧ b ≤ bytes.length then some ((bytes.take b).drop a) else none

/-- `&bytes[a..]` -/
def sliceFrom (bytes : Bytes) (a : Nat) : Option Bytes :=
  if a ≤ bytes.length then some (bytes.drop a) else none

/-- A computation that carries the offset; `none` is a panic. -/
abbrev Cursor := StateT Nat Option

/-- One field: decode `&body[offset..]`, advance the offset. -/
def field {α : Type} (body : Bytes) (dec : Bytes → Option (DecodeResult α)) : Cursor α := fun offset => do
  let rest ← sliceFrom body offset
  let r ← dec rest
  some (r.result, offset + r.offsetIncrement)

/-- `assert!(p)` -/
def require (p : Prop) [Decidable p] : Cursor Unit := fun offset => if p then some ((), offset) else none

section
variable {α β : Type}

theorem bind_eq_some {x : Cursor α} {f : α → Cursor β} {offset : Nat} {r : β × Nat} :
    (x >>= f) offset = some r ↔ ∃ a offset', x offset = some (a, offset') ∧ f a offset' = some r := by
  simp only [bind, StateT.bind, Option.bind_eq_some_iff, Prod.exists]

theorem pure_eq_some {a : α} {offset : Nat} {r : α × Nat} :
    (pure a : Cursor α) offset = some r ↔ (a, offset) = r := Option.some_inj

theorem run'_eq_some {x : Cursor α} {offset : Nat} {a : α} :
    x.run' offset = some a ↔ ∃ offset', x offset = some (a, offset') := by
  simp only [StateT.run', Option.map_eq_map, Option.map_eq_some_iff, Prod.exists, exists_and_right, exists_eq_right]

theorem require_eq_some {p : Prop} [Decidable p] {offset : Nat} {r : Unit × Nat} :
    require p offset = some r ↔ p ∧ ((), offset) = r := by
  unfold require; split_ifs <;> simp [*]

end

/-- The decoder reads `enc` back as `a` whatever follows it. -/
def Reads {α : Type} (dec : Bytes → Option (DecodeResult α)) (enc : Bytes) (a : α) : Prop :=
  ∀ rest, dec (enc ++ rest) = some ⟨a, enc.length⟩

/-- **Readable encodings are prefix-free**: if one begins another, both stand for the same value. -/
theorem Reads.eq_of_isPrefix {α : Type} {dec : Bytes → Option (DecodeResult α)} {enc enc' : Bytes} {a b : α}
    (h : Reads dec enc a) (h' : Reads dec enc' b) (hle : enc <+: enc') : a = b := by
  obtain ⟨tail, rfl⟩ := hle
  have hread := h' []
  rw [List.append_nil, h tail, Option.some.injEq, DecodeResult.mk.injEq] at hread
  exact hread.1

/-- The offset is inside the buffer, with `rest` still to decode. -/
def At (body : Bytes) (offset : Nat) (rest : Bytes) : Prop :=
  offset ≤ body.length ∧ body.drop offset = rest

theorem At.start (body : Bytes) : At body 0 body := ⟨Nat.zero_le _, rfl⟩

theorem At.sliceFrom {body rest : Bytes} {offset : Nat} (h : At body offset rest) :
    sliceFrom body offset = some rest := by
  rw [FieldDecode.sliceFrom, if_pos h.1, h.2]

theorem At.skip {body enc rest : Bytes} {offset : Nat} (h : At body offset (enc ++ rest)) :
    At body (offset + enc.length) rest := by
  obtain ⟨hle, hd⟩ := h
  refine ⟨?_, ?_⟩
  · have := congrArg List.length hd
    simp only [List.length_drop, List.length_append] at this
    omega
  · rw [← List.drop_drop, hd, List.drop_left]

theorem At.offset_eq {buf rest : Bytes} {offset : Nat} (h : At buf offset rest) :
    offset = buf.length - rest.length := by
  have hlen := congrArg List.length h.2
  have hle := h.1
  rw [List.length_drop] at hlen
  omega

theorem At.end_iff {buf rest : Bytes} {offset : Nat} (h : At buf offset rest) : offset = buf.length ↔ rest = [] := by
  have hlen := congrArg List.length h.2
  have hle := h.1
  rw [List.length_drop] at hlen
  rw [← List.length_eq_zero_iff]
  omega

/-- A field that may fail. -/
theorem At.field_bind_isSome {α β : Type} {body rest : Bytes} {offset : Nat} {dec : Bytes → Option (DecodeResult α)}
    {f : α → Cursor β} (h : At body offset rest) : ((field body dec >>= f) offset).isSome ↔
      ∃ r, dec rest = some r ∧ (f r.result (offset + r.offsetIncrement)).isSome := by
  simp only [bind, StateT.bind, field, h.sliceFrom, Option.bind_some]
  cases dec rest <;> simp

theorem require_bind {β : Type} {p : Prop} [Decidable p] {f : Unit → Cursor β} {offset : Nat} (hp : p) :
    (require p >>= f) offset = f () offset := by
  simp only [bind, StateT.bind, require, if_pos hp, Option.bind_some]

theorem lift_bind {α β : Type} {o : Option α} {a : α} {f : α → Cursor β} {offset : Nat} (ho : o = some a) :
    ((liftM o : Cursor α) >>= f) offset = f a offset := by
  subst ho; rfl

theorem slice_append_left (xs ys : Bytes) : slice (xs ++ ys) 0 xs.length = some xs := by
  simp [slice]

theorem slice_append_mid (pre xs ys : Bytes) :
    slice (pre ++ (xs ++ ys)) pre.length (pre.length + xs.length) = some xs := by
  rw [slice, if_pos (by simp)]
  rw [List.take_length_add_append, List.drop_left, List.take_left]

/-! ## Readers of several fields -/

/-- The reader takes `enc` and answers `o`, whatever follows; `none` is a panic. -/
def Takes {α : Type} (body : Bytes) (x : Cursor α) (enc : Bytes) (o : Option α) : Prop :=
  ∀ offset rest, At body offset (enc ++ rest) → x offset = o.map (·, offset + enc.length)

section
variable {α β : Type} {body enc enc' : Bytes} {x : Cursor α} {f : α → Cursor β} {o : Option α}

theorem Takes.pure (a : α) : Takes body (pure a) [] (some a) := fun _ _ _ => rfl

theorem Takes.field {dec : Bytes → Option (DecodeResult α)}
    (h : ∀ rest, dec (enc ++ rest) = o.map (⟨·, enc.length⟩)) : Takes body (field body dec) enc o := by
  intro offset rest hat
  simp only [FieldDecode.field, hat.sliceFrom, Option.bind_eq_bind, Option.bind_some, h rest]
  cases o <;> rfl

theorem Takes.reads {dec : Bytes → Option (DecodeResult α)} {a : α} (h : Reads dec enc a) :
    Takes body (FieldDecode.field body dec) enc (some a) := Takes.field h

theorem Takes.require {p : Prop} [Decidable p] (hp : p) : Takes body (require p) [] (some ()) :=
  fun _ _ _ => if_pos hp

theorem Takes.bind {g : α → Option β} (hx : Takes body x enc o)
    (hf : ∀ a, o = some a → Takes body (f a) enc' (g a)) : Takes body (x >>= f) (enc ++ enc') (o.bind g) := by
  intro offset rest hat
  rw [List.append_assoc] at hat
  simp only [Bind.bind, StateT.bind, hx offset _ hat]
  cases o with
  | none => rfl
  | some a =>
    simp only [Option.map_some, Option.bind_some]
    rw [hf a rfl _ rest hat.skip, List.length_append, Nat.add_assoc]

/-- The first part cannot fail. -/
theorem Takes.bind_some {a : α} {o' : Option β} (hx : Takes body x enc (some a)) (hf : Takes body (f a) enc' o') :
    Takes body (x >>= f) (enc ++ enc') o' := by
  refine Takes.bind (g := fun _ => o') hx fun a' ha => ?_
  cases ha
  exact hf

theorem Takes.map {g : α → β} (hx : Takes body x enc o) : Takes body (x >>= fun a => Pure.pure (g a)) enc (o.map g) := by
  have hall := hx.bind fun a _ => Takes.pure (g a)
  rw [List.append_nil] at hall
  rwa [Option.map_eq_bind]

/-- A part that is there only under a condition. -/
theorem Takes.ite {p : Bool} {y : Cursor α} {o' : Option α} (hx : p → Takes body x enc o)
    (hy : p = false → Takes body y enc' o') :
    Takes body (if p then x else y) (if p then enc else enc') (if p then o else o') := by
  cases p with
  | false => exact hy rfl
  | true => exact hx rfl

theorem At.takes_bind {a : α} {rest : Bytes} {offset : Nat} {r : Option (β × Nat)} (h : At body offset (enc ++ rest))
    (hx : Takes body x enc (some a)) (hf : ∀ offset', At body offset' rest → f a offset' = r) :
    (x >>= f) offset = r := by
  rw [← hf _ h.skip]
  simp only [Bind.bind, StateT.bind, hx offset rest h, Option.map_some, Option.bind_some]

/-- **One field of an encoding**: it is read, and what follows goes on behind it. -/
theorem At.field_bind {dec : Bytes → Option (DecodeResult α)} {a : α} {rest : Bytes} {offset : Nat}
    {r : Option (β × Nat)} (h : At body offset (enc ++ rest)) (hr : Reads dec enc a)
    (hf : ∀ offset', At body offset' rest → f a offset' = r) : (FieldDecode.field body dec >>= f) offset = r :=
  h.takes_bind (Takes.reads hr) hf

/-- The reader answers `o` in front of `enc`, of which it may leave a part. -/
def Answers {α : Type} (body : Bytes) (x : Cursor α) (enc : Bytes) (o : Option α) : Prop :=
  ∀ offset rest, At body offset (enc ++ rest) → (x offset).map Prod.fst = o

theorem Takes.bind_answers {g : α → Option β} (hx : Takes body x enc o)
    (hf : ∀ a, o = some a → Answers body (f a) enc' (g a)) : Answers body (x >>= f) (enc ++ enc') (o.bind g) := by
  intro offset rest hat
  rw [List.append_assoc] at hat
  simp only [Bind.bind, StateT.bind, hx offset _ hat]
  cases o with
  | none => rfl
  | some a => exact hf a rfl _ rest hat.skip

/-- What follows takes nothing. -/
theorem Answers.bind_pure {g : α → β} (hx : Answers body x enc o) (hf : ∀ a, o = some a → f a = Pure.pure (g a)) :
    Answers body (x >>= f) enc (o.map g) := by
  intro offset rest hat
  have ho := hx offset rest hat
  simp only [Bind.bind, StateT.bind]
  cases hr : x offset with
  | none =>
    rw [← ho, hr]
    rfl
  | some r =>
    rw [hr] at ho
    rw [← ho]
    simp only [Option.bind_some, hf r.1 ho.symm]
    rfl

theorem Answers.run' (hx : Answers enc x enc o) : x.run' 0 = o := by
  refine hx 0 [] ?_
  rw [List.append_nil]
  exact At.start enc

end

/-! ## Little-endian integers -/

def fromLe (bytes : Bytes) : Nat := bytes.foldr (fun b acc => b.toNat + 256 * acc) 0

/-- The low `k` bytes of `n`, least significant first. -/
def toLe : Nat → Nat → Bytes
  | 0, _ => []
  | k + 1, n => UInt8.ofNat n :: toLe k (n / 256)

@[simp] theorem toLe_length (k n : Nat) : (toLe k n).length = k := by
  induction k generalizing n with
  | zero => rfl
  | succ k ih => simp [toLe, ih]

@[simp] theorem fromLe_nil : fromLe [] = 0 := rfl

@[simp] theorem fromLe_cons (b : UInt8) (bs : Bytes) : fromLe (b :: bs) = b.toNat + 256 * fromLe bs := rfl

theorem fromLe_lt (bs : Bytes) : fromLe bs < 256 ^ bs.length := by
  induction bs with
  | nil => simp
  | cons b bs ih =>
    have hb := b.toNat_lt
    rw [fromLe_cons, List.length_cons, pow_succ]
    omega

theorem fromLe_toLe (k n : Nat) : fromLe (toLe k n) = n % 256 ^ k := by
  induction k generalizing n with
  | zero => simp [toLe, Nat.mod_one]
  | succ k ih =>
    rw [toLe, fromLe_cons, ih, pow_succ, Nat.mul_comm (256 ^ k), Nat.mod_mul]
    simp

theorem fromLe_toLe_of_lt {k n : Nat} (h : n < 256 ^ k) : fromLe (toLe k n) = n := by
  rw [fromLe_toLe, Nat.mod_eq_of_lt h]

theorem toLe_fromLe (bs : Bytes) : toLe bs.length (fromLe bs) = bs := by
  induction bs with
  | nil => rfl
  | cons b bs ih =>
    have hb := b.toNat_lt
    rw [List.length_cons, toLe, fromLe_cons]
    rw [show (b.toNat + 256 * fromLe bs) / 256 = fromLe bs by omega, ih]
    congr 1
    apply UInt8.toNat_inj.1
    rw [UInt8.toNat_ofNat']
    omega

end FieldDecode
