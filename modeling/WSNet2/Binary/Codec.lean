import Mathlib.Data.List.AList

/-!
# Binary codec — integers, `Str8`, `Dict` and `UnmarshalAs`

The primitive layer of the `wsnet2/binary` wire format, which `binary/event.go`, the room
and the peer build on.

The package's `types.go` is not among the sources; only its callers are. Its layout is
therefore modelled from the spec, which names the parts ("Str8 (1-byte length prefix) …
List (length-prefixed sequence of typed values), Dict (count-prefixed sequence of (str8
key, typed value)) … Integers are big-endian") but not every width. Counts and key lengths
take one byte, as `Str8` does. Each dict value carries its own 16-bit length: a property
value of length 0 reaches the room as a deletion marker (spec §4.5, §8), which a
self-delimiting typed value could not express.

The main results are the round trips `unmarshalAs_marshalStr8`, `unmarshalAs_marshalDict`
and friends, each for the whole range its length fields can carry.
-/

namespace WSNet2
namespace Binary

/-- Bytes on the wire. Go's `string` is a byte sequence too and is modelled the same way. -/
abbrev Bytes := List UInt8

/-- A Go string literal, as its UTF-8 bytes. -/
def utf8 (s : String) : Bytes := s.toUTF8.data.toList

theorem toNat_ofNat (n : Nat) : (UInt8.ofNat n).toNat = n % 256 := by
  simp [UInt8.toNat, UInt8.ofNat, BitVec.toNat_ofNat]

/-! ## UTF-8 -/

/-- A string's bytes are its characters' encodings, one after the other. -/
theorem utf8_eq_flatMap (s : String) : utf8 s = s.data.flatMap String.utf8EncodeChar := rfl

/-- `x &&& 0x3f ||| 0x80`, the form of every continuation byte, lies in `%x80-BF`. -/
theorem toNat_continuation_lt (x : UInt8) : (x &&& 0x3f ||| 0x80).toNat < 0xC0 := by
  have h63 : x.toNat &&& 63 ≤ 63 := Nat.and_le_right
  have h : 128 + (x.toNat &&& 63) = 128 ||| (x.toNat &&& 63) :=
    Nat.mul_add_lt_is_or (i := 7) (by omega) 1
  show (x.toBitVec &&& 0x3f ||| 0x80).toNat < 0xC0
  rw [BitVec.toNat_or, BitVec.toNat_and]
  show x.toNat &&& 63 ||| 128 < 192
  rw [Nat.or_comm, ← h]
  omega

/-- A character's encoding ends in an ASCII byte or a continuation byte, never in a lead
byte (`%xC0-FF`). -/
theorem getLast?_utf8EncodeChar (c : Char) :
    ∀ b ∈ (String.utf8EncodeChar c).getLast?, b.toNat < 0xC0 := by
  unfold String.utf8EncodeChar
  dsimp only
  split_ifs with h₁ <;> simp only [List.getLast?_cons_cons, List.getLast?_singleton,
    Option.mem_def, Option.some.injEq, forall_eq']
  · have hv : c.val.toNat ≤ 127 := h₁
    show (UInt8.ofNat c.val.toNat).toNat < 192
    rw [toNat_ofNat]; omega
  all_goals exact toNat_continuation_lt _

/-- So does the encoding of a whole string: no valid UTF-8 text ends in a lead byte. -/
theorem getLast?_utf8 (s : String) : ∀ b ∈ (utf8 s).getLast?, b.toNat < 0xC0 := by
  rw [utf8_eq_flatMap]
  induction s.data with
  | nil => simp
  | cons c cs ih =>
    rw [List.flatMap_cons, List.getLast?_append]
    cases h : (cs.flatMap String.utf8EncodeChar).getLast? with
    | none => exact getLast?_utf8EncodeChar c
    | some b' => rw [h] at ih; exact ih

/-! ## Big-endian integers -/

/-- Modelled from the spec: `put16`, the low 16 bits of `v`, big-endian. -/
def put16 (v : Nat) : Bytes := [UInt8.ofNat (v / 256), UInt8.ofNat v]

/-- Modelled from the spec: `put24`, the low 24 bits of `v`, big-endian. -/
def put24 (v : Nat) : Bytes :=
  [UInt8.ofNat (v / 65536), UInt8.ofNat (v / 256), UInt8.ofNat v]

/-- Modelled from the spec: `put32`, the low 32 bits of `v`, big-endian. -/
def put32 (v : Nat) : Bytes :=
  [UInt8.ofNat (v / 16777216), UInt8.ofNat (v / 65536), UInt8.ofNat (v / 256), UInt8.ofNat v]

/-- Modelled from the spec: `put64`, the low 64 bits of `v`, big-endian. -/
def put64 (v : Nat) : Bytes := put32 (v / 4294967296) ++ put32 v

/-- Modelled from the spec: `get16`. Callers check the length first; on shorter data Go
would index out of range. -/
def get16 : Bytes → Nat
  | a :: b :: _ => a.toNat * 256 + b.toNat
  | _ => 0

/-- Modelled from the spec: `get24`. -/
def get24 : Bytes → Nat
  | a :: b :: c :: _ => a.toNat * 65536 + b.toNat * 256 + c.toNat
  | _ => 0

/-- Modelled from the spec: `get32`. -/
def get32 : Bytes → Nat
  | a :: b :: c :: d :: _ => a.toNat * 16777216 + b.toNat * 65536 + c.toNat * 256 + d.toNat
  | _ => 0

/-- Modelled from the spec: `get64`. -/
def get64 (data : Bytes) : Nat := get32 data * 4294967296 + get32 (data.drop 4)

@[simp] theorem length_put16 (v : Nat) : (put16 v).length = 2 := rfl
@[simp] theorem length_put24 (v : Nat) : (put24 v).length = 3 := rfl
@[simp] theorem length_put32 (v : Nat) : (put32 v).length = 4 := rfl
@[simp] theorem length_put64 (v : Nat) : (put64 v).length = 8 := rfl

@[simp] theorem get16_put16 (v : Nat) (rest : Bytes) : get16 (put16 v ++ rest) = v % 65536 := by
  simp only [put16, get16, List.cons_append, List.nil_append, toNat_ofNat]
  rw [Nat.mod_mul (a := 256) (b := 256)]
  ac_rfl

@[simp] theorem get24_put24 (v : Nat) (rest : Bytes) :
    get24 (put24 v ++ rest) = v % 16777216 := by
  simp only [put24, get24, List.cons_append, List.nil_append, toNat_ofNat]
  rw [Nat.mod_mul (a := 256) (b := 65536), Nat.mod_mul (x := v / 256) (a := 256) (b := 256)]
  simp only [Nat.div_div_eq_div_mul, Nat.mul_add, ← Nat.mul_assoc, Nat.reduceMul]
  ac_rfl

@[simp] theorem get32_put32 (v : Nat) (rest : Bytes) :
    get32 (put32 v ++ rest) = v % 4294967296 := by
  simp only [put32, get32, List.cons_append, List.nil_append, toNat_ofNat]
  rw [Nat.mod_mul (a := 256) (b := 16777216), Nat.mod_mul (x := v / 256) (a := 256) (b := 65536),
    Nat.mod_mul (x := v / 256 / 256) (a := 256) (b := 256)]
  simp only [Nat.div_div_eq_div_mul, Nat.mul_add, ← Nat.mul_assoc, Nat.reduceMul]
  ac_rfl

@[simp] theorem get64_put64 (v : Nat) (rest : Bytes) :
    get64 (put64 v ++ rest) = v % 18446744073709551616 := by
  have h := get32_put32 (v / 4294967296) (put32 v ++ rest)
  simp only [get64, put64, List.append_assoc, h, List.drop_left' (length_put32 _),
    get32_put32]
  rw [Nat.mod_mul (a := 4294967296) (b := 4294967296)]
  ac_rfl

/-! ## Type tags

Modelled from the spec: numbered in the order it lists the types (`Null`, `False`, `True`, `SByte`, `Byte`,
`Short`, `UShort`, `Int`, `UInt`, `Long`, `ULong`, `Float`, `Double`, `Decimal`, `Str8`,
`Str16`, `Bytes`, `List`, `Dict`, object); only the tags the modelled code reads appear. -/

/-- Modelled from the spec: `TypeNull`. -/
def typeNull : UInt8 := 0
/-- Modelled from the spec: `TypeUInt`. -/
def typeUInt : UInt8 := 8
/-- Modelled from the spec: `TypeULong`. -/
def typeULong : UInt8 := 10
/-- Modelled from the spec: `TypeStr8`. -/
def typeStr8 : UInt8 := 14
/-- Modelled from the spec: `TypeList`. -/
def typeList : UInt8 := 17
/-- Modelled from the spec: `TypeDict`. -/
def typeDict : UInt8 := 18

/-! ## Marshaling -/

/-- Modelled from the spec: `MarshalNull`. -/
def marshalNull : Bytes := [typeNull]

/-- Modelled from the spec: `MarshalStr8`, the tag, a length byte and the bytes. -/
def marshalStr8 (s : Bytes) : Bytes := typeStr8 :: UInt8.ofNat s.length :: s

/-- Modelled from the spec: `MarshalUInt` of Go's `int`, the tag and four big-endian bytes. -/
def marshalUInt (v : Nat) : Bytes := typeUInt :: put32 v

/-- Modelled from the spec: `MarshalULong`, the tag and eight big-endian bytes. -/
def marshalULong (v : UInt64) : Bytes := typeULong :: put64 v.toNat

@[simp] theorem length_marshalUInt (v : Nat) : (marshalUInt v).length = 5 := rfl
@[simp] theorem length_marshalULong (v : UInt64) : (marshalULong v).length = 9 := rfl

/-- Modelled from the spec: `binary.Dict`, Go's `map[string][]byte`, each key's value itself
marshaled bytes.
Go maps compare by content, so two dicts are the same when their entries are a
permutation of each other. -/
abbrev Dict := AList (fun _ : Bytes => Bytes)

/-- Modelled from the spec: one dict entry on the wire, the key length, the key, the 16-bit
value length and the value. -/
def marshalEntry (e : Σ _ : Bytes, Bytes) : Bytes :=
  UInt8.ofNat e.1.length :: (e.1 ++ put16 e.2.length ++ e.2)

/-- Modelled from the spec: `MarshalDict`, the tag, the entry count, then the entries in the
map's iteration order. -/
def marshalDict (d : Dict) : Bytes :=
  typeDict :: UInt8.ofNat d.entries.length :: d.entries.flatMap marshalEntry

/-- Modelled from the spec: `MarshalStrings`, a `List` of `Str8` values, each framed by its
16-bit length like a dict value. -/
def marshalStrings (ss : List Bytes) : Bytes :=
  typeList :: UInt8.ofNat ss.length ::
    ss.flatMap fun s => put16 (marshalStr8 s).length ++ marshalStr8 s

/-! ## Unmarshaling -/

/-- Modelled from the spec: read `n` dict entries, the (key, value) pairs in wire order and the
bytes they took. -/
def unmarshalEntries : Nat → Bytes → Option (List (Σ _ : Bytes, Bytes) × Nat)
  | 0, _ => some ([], 0)
  | _ + 1, [] => none
  | n + 1, kl :: data =>
    let k := kl.toNat
    let vl := get16 (data.drop k)
    if data.length < k + 2 + vl then none
    else
      (unmarshalEntries n (data.drop (k + 2 + vl))).map fun (es, l) =>
        (⟨data.take k, (data.drop (k + 2)).take vl⟩ :: es, 1 + (k + 2 + vl) + l)

/-- Modelled from the spec: the map Go builds from the wire entries, `dict[key] = value` in
order, so that a later duplicate key overwrites an earlier one. -/
def dictOf (es : List (Σ _ : Bytes, Bytes)) : Dict :=
  es.foldl (fun d e => d.insert e.1 e.2) ∅

/-- Modelled from the spec: a decoded typed value, what `UnmarshalAs` returns as an
`interface{}`. -/
inductive Value
  | null
  | uint (v : UInt32)
  | ulong (v : UInt64)
  | str8 (s : Bytes)
  | dict (d : Dict)

/-- Modelled from the spec: the value of type `t` whose tag has just been read from the front
of the data, and the number of bytes it took, tag included. -/
def unmarshalValue (t : UInt8) (data : Bytes) : Except String (Value × Nat) :=
  if t = typeNull then .ok (.null, 1)
  else if t = typeUInt then
    if data.length < 4 then .error "data length not enough"
    else .ok (.uint (UInt32.ofNat (get32 data)), 5)
  else if t = typeULong then
    if data.length < 8 then .error "data length not enough"
    else .ok (.ulong (UInt64.ofNat (get64 data)), 9)
  else if t = typeStr8 then
    match data with
    | [] => .error "data length not enough"
    | l :: s =>
      if s.length < l.toNat then .error "data length not enough"
      else .ok (.str8 (s.take l.toNat), 2 + l.toNat)
  else if t = typeDict then
    match data with
    | [] => .error "data length not enough"
    | n :: rest =>
      match unmarshalEntries n.toNat rest with
      | none => .error "data length not enough"
      | some (es, l) => .ok (.dict (dictOf es), 2 + l)
  else .error "unsupported type"

/-- Modelled from the spec: `UnmarshalAs(data, types...)`, the typed value at the front of
`data`, which must be of one of `types`, and the number of bytes it took. -/
def unmarshalAs (data : Bytes) (types : List UInt8) : Except String (Value × Nat) :=
  match data with
  | [] => .error "data length not enough"
  | t :: rest => if t ∈ types then unmarshalValue t rest else .error "type mismatch"

/-! ## Round trips -/

theorem uint32_ofNat_mod (v : Nat) : UInt32.ofNat (v % 4294967296) = UInt32.ofNat v := by
  apply UInt32.toNat.inj
  simp [UInt32.toNat, UInt32.ofNat, BitVec.toNat_ofNat]

theorem uint64_ofNat_toNat (v : UInt64) : UInt64.ofNat v.toNat = v := by
  apply UInt64.toNat.inj
  simp [UInt64.toNat, UInt64.ofNat, BitVec.toNat_ofNat]

theorem unmarshalAs_cons (t : UInt8) (rest : Bytes) (ts : List UInt8) (ht : t ∈ ts) :
    unmarshalAs (t :: rest) ts = unmarshalValue t rest := by
  simp [unmarshalAs, ht]

theorem unmarshalAs_marshalNull (rest : Bytes) (ts : List UInt8) (ht : typeNull ∈ ts) :
    unmarshalAs (marshalNull ++ rest) ts = .ok (.null, 1) := by
  rw [marshalNull, List.singleton_append, unmarshalAs_cons _ _ _ ht]
  rfl

theorem unmarshalAs_marshalUInt (v : Nat) (rest : Bytes) (ts : List UInt8) (ht : typeUInt ∈ ts) :
    unmarshalAs (marshalUInt v ++ rest) ts = .ok (.uint (UInt32.ofNat v), 5) := by
  rw [marshalUInt, List.cons_append, unmarshalAs_cons _ _ _ ht]
  simp [unmarshalValue, uint32_ofNat_mod, typeUInt, typeNull]

theorem unmarshalAs_marshalULong (v : UInt64) (rest : Bytes) (ts : List UInt8)
    (ht : typeULong ∈ ts) :
    unmarshalAs (marshalULong v ++ rest) ts = .ok (.ulong v, 9) := by
  have hv : v.toNat % 18446744073709551616 = v.toNat := Nat.mod_eq_of_lt v.toNat_lt_size
  rw [marshalULong, List.cons_append, unmarshalAs_cons _ _ _ ht]
  simp [unmarshalValue, hv, uint64_ofNat_toNat, typeULong, typeUInt, typeNull]

/-- A `Str8` of at most 255 bytes reads back whole, whatever follows it. -/
theorem unmarshalAs_marshalStr8 (s rest : Bytes) (ts : List UInt8) (ht : typeStr8 ∈ ts)
    (hs : s.length < 256) :
    unmarshalAs (marshalStr8 s ++ rest) ts = .ok (.str8 s, (marshalStr8 s).length) := by
  have hl : ¬ s.length + rest.length < s.length := by omega
  have h2 : 2 + s.length = s.length + 1 + 1 := by omega
  rw [marshalStr8, List.cons_append, unmarshalAs_cons _ _ _ ht]
  simp [unmarshalValue, toNat_ofNat, Nat.mod_eq_of_lt hs, typeStr8, typeULong, typeUInt,
    typeNull, hl, h2]

theorem unmarshalEntries_marshalEntry (e : Σ _ : Bytes, Bytes) (n : Nat) (tail : Bytes)
    (hk : e.1.length < 256) (hv : e.2.length < 65536) :
    unmarshalEntries (n + 1) (marshalEntry e ++ tail) =
      (unmarshalEntries n tail).map fun (es, l) => (e :: es, (marshalEntry e).length + l) := by
  obtain ⟨key, value⟩ := e
  have hd : (key ++ (put16 value.length ++ (value ++ tail))).drop (key.length + 2) =
      value ++ tail := by
    rw [← List.drop_drop, List.drop_left, List.drop_left' (length_put16 _)]
  simp only [marshalEntry, List.cons_append, List.append_assoc, unmarshalEntries, toNat_ofNat,
    Nat.mod_eq_of_lt hk, List.append_eq, List.drop_left, get16_put16, Nat.mod_eq_of_lt hv,
    List.length_append, length_put16, hd, List.take_left, List.length_cons]
  rw [if_neg (by omega), ← List.drop_drop, hd, List.drop_left]
  congr 1
  funext x
  congr 2
  omega

/-- Entries within the wire's limits read back exactly, in order. -/
theorem unmarshalEntries_flatMap (es : List (Σ _ : Bytes, Bytes)) (tail : Bytes)
    (h : ∀ e ∈ es, e.1.length < 256 ∧ e.2.length < 65536) :
    unmarshalEntries es.length (es.flatMap marshalEntry ++ tail) =
      some (es, (es.flatMap marshalEntry).length) := by
  induction es with
  | nil => rfl
  | cons e es ih =>
    obtain ⟨hk, hv⟩ := h e (List.mem_cons_self e es)
    rw [List.length_cons, List.flatMap_cons, List.append_assoc,
      unmarshalEntries_marshalEntry e _ _ hk hv, ih fun e he => h e (List.mem_cons_of_mem _ he)]
    simp

/-- Inserting entries with fresh, distinct keys puts them in front, latest first. -/
theorem foldl_insert_entries (l : List (Σ _ : Bytes, Bytes)) (d₀ : Dict) (hl : l.NodupKeys)
    (hd : ∀ e ∈ l, e.1 ∉ d₀) :
    (l.foldl (fun d e => d.insert e.1 e.2) d₀).entries = l.reverse ++ d₀.entries := by
  induction l generalizing d₀ with
  | nil => simp
  | cons e l ih =>
    rw [List.nodupKeys_cons] at hl
    have hfresh : ∀ e' ∈ l, e'.1 ∉ d₀.insert e.1 e.2 := by
      intro e' he' hmem
      rcases (AList.mem_insert _).1 hmem with heq | hmem
      · exact hl.1 (heq ▸ List.mem_keys_of_mem he')
      · exact hd e' (List.mem_cons_of_mem _ he') hmem
    rw [List.foldl_cons, ih _ hl.2 hfresh,
      AList.insert_entries_of_neg (hd e (List.mem_cons_self e l))]
    simp

/-- The map decoded from a dict's own entries holds the same entries. -/
theorem dictOf_entries_perm (d : Dict) : (dictOf d.entries).entries.Perm d.entries := by
  rw [dictOf, foldl_insert_entries _ _ d.nodupKeys (by simp)]
  simp

/-- What the wire can carry of a dict: at most 255 entries, keys of at most 255 bytes (a
`Str8`) and values of at most 65535 bytes. -/
def Dict.Encodable (d : Dict) : Prop :=
  d.entries.length < 256 ∧ ∀ e ∈ d.entries, e.1.length < 256 ∧ e.2.length < 65536

instance : DecidablePred Dict.Encodable := fun _ => inferInstanceAs (Decidable (_ ∧ _))

/-- A dict within the wire's limits reads back as the same map, whatever follows it. -/
theorem unmarshalAs_marshalDict (d : Dict) (rest : Bytes) (ts : List UInt8)
    (ht : typeDict ∈ ts) (hd : d.Encodable) :
    unmarshalAs (marshalDict d ++ rest) ts =
      .ok (.dict (dictOf d.entries), (marshalDict d).length) := by
  have he := unmarshalEntries_flatMap d.entries rest hd.2
  rw [marshalDict, List.cons_append, unmarshalAs_cons _ _ _ ht]
  simp [unmarshalValue, toNat_ofNat, Nat.mod_eq_of_lt hd.1, he, typeDict, typeStr8, typeULong,
    typeUInt, typeNull]
  omega

/-! ## Beyond the wire's limits

Each bound of `Dict.Encodable` is needed: past it a length field wraps and the dict reads
back as another one. -/

/-- A dict of 256 entries has its count byte wrap to 0 and reads back as the empty dict. -/
theorem unmarshalAs_marshalDict_of_length (d : Dict) (rest : Bytes) (ts : List UInt8)
    (ht : typeDict ∈ ts) (hd : d.entries.length = 256) :
    unmarshalAs (marshalDict d ++ rest) ts = .ok (.dict ∅, 2) := by
  rw [marshalDict, hd, List.cons_append, unmarshalAs_cons _ _ _ ht]
  rfl

/-- 256 entries with keys of 0 to 255 zero bytes and empty values: every key and value
within its bound, and the dict reads back empty. -/
theorem dict_of_256_entries_lost :
    ∃ d : Dict, d.entries.length = 256 ∧
      (∀ e ∈ d.entries, e.1.length < 256 ∧ e.2.length < 65536) ∧
      unmarshalAs (marshalDict d) [typeDict] = .ok (.dict ∅, 2) := by
  let l : List (Σ _ : Bytes, Bytes) := (List.range 256).map fun i => ⟨List.replicate i 0, []⟩
  have hl : l.NodupKeys := by
    show (l.map Sigma.fst).Nodup
    rw [List.map_map]
    exact (List.nodup_range 256).map fun i j h => by
      simpa using congrArg List.length h
  have he : (dictOf l).entries = l.reverse := by
    rw [dictOf, foldl_insert_entries l ∅ hl fun _ _ => AList.not_mem_empty _]
    exact List.append_nil _
  have hlen : (dictOf l).entries.length = 256 := by simp [he, l]
  refine ⟨dictOf l, hlen, fun e he' => ?_, ?_⟩
  · rw [he, List.mem_reverse] at he'
    obtain ⟨i, hi, rfl⟩ := List.mem_map.1 he'
    simpa using List.mem_range.1 hi
  · simpa using unmarshalAs_marshalDict_of_length _ [] _ (List.mem_singleton_self _) hlen

/-- A value of 65536 bytes is framed as an empty one followed by stray bytes. -/
theorem marshalEntry_of_length (k v : Bytes) (hv : v.length = 65536) :
    marshalEntry ⟨k, v⟩ = marshalEntry ⟨k, []⟩ ++ v := by
  simp only [marshalEntry, hv, List.cons_append, List.append_assoc, List.append_nil]
  rfl

/-- An entry whose value has 65536 bytes has its 16-bit length wrap to 0, and reads back with
an empty value, which the room takes for a deletion. -/
theorem unmarshalAs_marshalDict_long_value (k v : Bytes) (hk : k.length < 256)
    (hv : v.length = 65536) :
    unmarshalAs (marshalDict ((∅ : Dict).insert k v)) [typeDict] =
      .ok (.dict ((∅ : Dict).insert k []), k.length + 5) := by
  have he : unmarshalEntries (UInt8.ofNat 1).toNat (marshalEntry ⟨k, []⟩ ++ v) =
      some ([⟨k, []⟩], (marshalEntry ⟨k, []⟩).length + 0) :=
    unmarshalEntries_marshalEntry ⟨k, []⟩ 0 v hk (Nat.zero_lt_succ _)
  rw [marshalDict, AList.insert_entries_of_neg (AList.not_mem_empty k), AList.empty_entries,
    List.flatMap_singleton, List.length_singleton, marshalEntry_of_length k v hv,
    unmarshalAs_cons _ _ _ (List.mem_singleton_self _), unmarshalValue, if_neg (by decide),
    if_neg (by decide), if_neg (by decide), if_neg (by decide), if_pos rfl]
  rw [he]
  simp [dictOf, marshalEntry]
  omega

end Binary
end WSNet2
