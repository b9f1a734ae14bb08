/-
LMCache.L2Adapters.KeyCodec — the names under which storage adapters keep keys
(`distributed/key_codec.py` and the raw-block `key_codec.py`).

A name is the fields of a key joined by `@`, with the salt and a token of the
tags as optional trailing fields. A model name holds no `@`, so the storage name
and the raw-block name give the key back (`names_decode_to_key`). The file name
writes each slash as `-SEP-` and escapes nothing: it gives the key back iff the
model name holds no such mark of its own (`filename_decodes_iff`).

Text is a list of characters. JSON, base64 and URL quoting are `TextCodecs`.
Left out: the blanks, underscores and non-ASCII digits that `int` and `fromhex`
let pass, and `extra_attributes`, which equality does not compare.
-/
import Mathlib.Data.List.Infix
import Mathlib.Data.Set.Function
import Mathlib.Logic.Equiv.List

namespace LMCache.L2Adapters.KeyCodec

open List

abbrev Text := List Char

/-- A dictionary of tags, by its items in the order of their names: dictionaries
are compared without one, and keys and tokens freeze this one. -/
abbrev Tags := { items : List (Text × Text) // items.Pairwise fun a b => a.1 < b.1 }

/-! ## Keys -/

inductive CodecError where
  | value (message : String)
  -- a decoder of a library complains
  | malformed
  deriving DecidableEq, Repr

/-- `validate_identity_tags`. -/
def ValidTags (tags : Tags) : Prop := ∀ tag ∈ tags.1, tag.1 ≠ []

instance (tags : Tags) : Decidable (ValidTags tags) := by unfold ValidTags; infer_instance

/-- The fields by which keys are matched, as `__post_init__` lets them through. -/
structure ObjectKey where
  chunkHash : List UInt8
  kvRank : Int
  modelName : Text
  objectGroupId : Int
  cacheSalt : Text
  tags : Tags
  model_plain : '@' ∉ modelName
  group_nonneg : 0 ≤ objectGroupId
  salt_plain : ¬ "@/\\\x00".toList.any (· ∈ cacheSalt)
  salt_short : cacheSalt.length ≤ 128
  tags_valid : ValidTags tags

/-- `ObjectKey(…)`, with the checks in their order. -/
def ObjectKey.make (chunkHash : List UInt8) (kvRank : Int) (modelName : Text)
    (objectGroupId : Int) (cacheSalt : Text) (tags : Tags) : Except CodecError ObjectKey :=
  if hmodel : '@' ∉ modelName then
    if hgroup : 0 ≤ objectGroupId then
      if hplain : ¬ "@/\\\x00".toList.any (· ∈ cacheSalt) then
        if hshort : cacheSalt.length ≤ 128 then
          if hvalid : ValidTags tags then
            .ok ⟨chunkHash, kvRank, modelName, objectGroupId, cacheSalt, tags, hmodel, hgroup,
              hplain, hshort, hvalid⟩
          else .error (.value "tags require non-empty string names and string values")
        else .error (.value "cache_salt exceeds max length 128")
      else .error (.value "cache_salt must not contain '@', '/', '\\' or NUL")
    else .error (.value "object_group_id must be >= 0")
  else .error (.value "model_name must not contain '@'")

/-- The key under another model name. -/
def ObjectKey.renamed (key : ObjectKey) (name : Text) (h : '@' ∉ name) : ObjectKey :=
  { key with modelName := name, model_plain := h }

lemma ObjectKey.make_renamed (key : ObjectKey) {name : Text} (h : '@' ∉ name) :
    make key.chunkHash key.kvRank name key.objectGroupId key.cacheSalt key.tags =
      .ok (key.renamed name h) := by
  rw [make, dif_pos h, dif_pos key.group_nonneg, dif_pos key.salt_plain, dif_pos key.salt_short,
    dif_pos key.tags_valid]
  rfl

/-! ## Hexadecimal text -/

def hexValue (c : Char) : Option Nat :=
  if '0' ≤ c ∧ c ≤ '9' then some (c.toNat - 48)
  else if 'a' ≤ c ∧ c ≤ 'f' then some (c.toNat - 87)
  else if 'A' ≤ c ∧ c ≤ 'F' then some (c.toNat - 55)
  else none

/-- One more digit of a number. -/
def readDigit (n : Nat) (c : Char) : Option Nat := (hexValue c).map (16 * n + ·)

def readDigits (text : Text) : Option Nat :=
  if text = [] then none else text.foldlM readDigit 0

/-- Digits, after `0x` or without it. -/
def readUnsigned (text : Text) : Option Nat :=
  readDigits text <|> match text with
    | '0' :: 'x' :: digits | '0' :: 'X' :: digits => readDigits digits
    | _ => none

/-- `int(text, 16)`. -/
def readInt (text : Text) : Option Int :=
  (readUnsigned text).map Int.ofNat <|> match text with
    | '-' :: digits => (readUnsigned digits).map fun n => -(n : Int)
    | '+' :: digits => (readUnsigned digits).map Int.ofNat
    | _ => none

/-- `format(n, …)` under `x`, `08x` and `#010x`: the sign and the `0x` of the
alternate form count in the width. -/
def formatHex (alternate : Bool) (width : Nat) (n : Int) : Text :=
  let lead := (if n < 0 then ['-'] else []) ++ if alternate then ['0', 'x'] else []
  let digits := Nat.toDigits 16 n.natAbs
  lead ++ (replicate (width - lead.length - digits.length) '0' ++ digits)

/-- `bytes.hex`. -/
def bytesHex (bytes : List UInt8) : Text :=
  bytes.flatMap fun b => [Nat.digitChar (b.toNat / 16), Nat.digitChar (b.toNat % 16)]

/-- `bytes.fromhex`. -/
def bytesFromHex : Text → Option (List UInt8)
  | [] => some []
  | [_] => none
  | c :: d :: text => do
    let high ← hexValue c
    let low ← hexValue d
    let bytes ← bytesFromHex text
    return UInt8.ofNat (16 * high + low) :: bytes

lemma hexValue_digitChar : ∀ d < 16, hexValue (Nat.digitChar d) = some d := by decide

lemma foldlM_toDigits (n : Nat) : (Nat.toDigits 16 n).foldlM readDigit 0 = some n := by
  induction n using Nat.strongRecOn with
  | _ n ih =>
    by_cases h : n < 16
    · simp [Nat.toDigits_of_lt_base h, readDigit, hexValue_digitChar n h]
    · rw [Nat.toDigits_of_base_le (by decide) (Nat.le_of_not_lt h), foldlM_append,
        ih (n / 16) (Nat.div_lt_self (by omega) (by decide))]
      simp [readDigit, hexValue_digitChar (n % 16) (Nat.mod_lt _ (by decide))]
      omega

/-- Leading zeros change nothing. -/
lemma readDigits_padded (k n : Nat) :
    readDigits (replicate k '0' ++ Nat.toDigits 16 n) = some n := by
  have hzero : (replicate k '0').foldlM readDigit 0 = some 0 := by
    induction k with
    | zero => rfl
    | succ k ih => exact ih
  have hne : Nat.toDigits 16 n ≠ [] := Nat.toDigits_ne_nil
  simp [readDigits, hne, foldlM_append, hzero, foldlM_toDigits]

lemma at_not_mem_toDigits (n : Nat) : '@' ∉ Nat.toDigits 16 n := by
  induction n using Nat.strongRecOn with
  | _ n ih =>
    by_cases h : n < 16
    · simp [Nat.toDigits_of_lt_base h]
    · rw [Nat.toDigits_of_base_le (by decide) (Nat.le_of_not_lt h)]
      simp [ih (n / 16) (Nat.div_lt_self (by omega) (by decide))]

section

variable (alternate : Bool) (width : Nat) (n : Int)

/-- Python's formats of a number are read back by `int`. -/
lemma readInt_formatHex : readInt (formatHex alternate width n) = some n := by
  have hread : ∀ k, readUnsigned ((if alternate then ['0', 'x'] else []) ++
      (replicate k '0' ++ Nat.toDigits 16 n.natAbs)) = some n.natAbs := by
    intro k
    cases alternate
    · simp [readUnsigned, readDigits_padded]
    · have hx : ∀ text, readDigits ('0' :: 'x' :: text) = none := fun _ => rfl
      simp [readUnsigned, hx, readDigits_padded]
  generalize hm : n.natAbs = m at hread
  by_cases hneg : n < 0
  · have hminus : ∀ text, readUnsigned ('-' :: text) = none := fun _ => rfl
    simp [formatHex, readInt, hneg, hminus, hm, hread]
    omega
  · simp [formatHex, readInt, hneg, hm, hread]
    omega

lemma at_not_mem_formatHex : '@' ∉ formatHex alternate width n := by
  simp only [formatHex, mem_append, at_not_mem_toDigits, mem_replicate]
  split <;> split <;> simp

end

lemma bytesFromHex_bytesHex (bytes : List UInt8) : bytesFromHex (bytesHex bytes) = some bytes := by
  induction bytes with
  | nil => rfl
  | cons b bytes ih =>
    have hb : b.toNat / 16 < 16 := by have := b.toNat_lt; omega
    show bytesFromHex (Nat.digitChar _ :: Nat.digitChar _ :: bytesHex bytes) = _
    simp only [bytesFromHex, hexValue_digitChar _ hb,
      hexValue_digitChar _ (Nat.mod_lt b.toNat (show 16 > 0 by decide)), ih]
    show some (UInt8.ofNat (16 * (b.toNat / 16) + b.toNat % 16) :: bytes) = _
    rw [Nat.div_add_mod, UInt8.ofNat_toNat]

lemma at_not_mem_bytesHex (bytes : List UInt8) : '@' ∉ bytesHex bytes := by
  simp [bytesHex]

/-! ## Tags -/

/-- The codecs of the libraries, with what is assumed of them. -/
structure TextCodecs where
  -- the JSON of tags in base64, without its padding
  encode : Tags → Text
  decode : Text → Option Tags
  quote : Text → Text
  unquote : Text → Text
  decode_encode : ∀ tags, decode (encode tags) = some tags
  encode_plain : ∀ tags, '@' ∉ encode tags
  unquote_quote : ∀ text, unquote (quote text) = text
  quote_plain : ∀ text, '@' ∉ quote text

variable (lib : TextCodecs)

def encodeTags (tags : Tags) : Text :=
  if tags.1 = [] then [] else 'x' :: '1' :: '-' :: lib.encode tags

def decodeTags (token : Text) : Except CodecError Tags :=
  match token with
  | [] => .ok ⟨[], .nil⟩
  | 'x' :: '1' :: '-' :: encoded =>
    match lib.decode encoded with
    | none => .error .malformed
    | some tags =>
      if ValidTags tags then
        if encodeTags lib tags = token then .ok tags
        else .error (.value "non-canonical identity tags token")
      else .error (.value "tags require non-empty string names and string values")
  | _ => .error (.value "unsupported identity tags version")

lemma decodeTags_encodeTags {tags : Tags} (h : ValidTags tags) :
    decodeTags lib (encodeTags lib tags) = .ok tags := by
  by_cases hempty : tags.1 = []
  · simp [encodeTags, decodeTags, hempty, ← Subtype.val_inj]
  · simp [encodeTags, hempty, decodeTags, lib.decode_encode, h]

/-! ## Names -/

/-- `format_storage_key` under the templates of the three names: the text of the
model and the format of the rank differ. -/
def formatStorageKey (key : ObjectKey) (model : Text) (alternate : Bool) (width : Nat) : Text :=
  let token := encodeTags lib key.tags
  let suffix := if token ≠ [] then '@' :: (key.cacheSalt ++ '@' :: token)
    else if key.cacheSalt ≠ [] then '@' :: key.cacheSalt else []
  model ++ '@' :: (formatHex alternate width key.kvRank ++ '@' ::
    (formatHex false 0 key.objectGroupId ++ '@' :: (bytesHex key.chunkHash ++ suffix)))

def encodeStorageKey (key : ObjectKey) : Text := formatStorageKey lib key key.modelName false 8

/-- The raw-block name. -/
def objectKeyToString (key : ObjectKey) : Text :=
  formatStorageKey lib key (lib.quote key.modelName) true 10

/-- `model_name.replace("/", "-SEP-")`. -/
def markSlashes (model : Text) : Text :=
  model.flatMap fun c => if c = '/' then ['-', 'S', 'E', 'P', '-'] else [c]

/-- `model.replace("-SEP-", "/")`. -/
def restoreSlashes : Text → Text
  | '-' :: 'S' :: 'E' :: 'P' :: '-' :: text => '/' :: restoreSlashes text
  | c :: text => c :: restoreSlashes text
  | [] => []

def encodeFsFilename (key : ObjectKey) : Text :=
  formatStorageKey lib key (markSlashes key.modelName) true 10 ++ ".data".toList

def decodeStorageKey (modelDecoder : Text → Text) (encoded : Text) : Except CodecError ObjectKey :=
  let parts := encoded.splitOn '@'
  let token := if parts.length = 6 then parts.getLastD [] else []
  let parts := if parts.length = 6 then parts.dropLast else parts
  let parts := if parts.length = 4 then parts ++ [[]] else parts
  match parts with
  | [model, rank, group, chunkHash, salt] =>
    match bytesFromHex chunkHash, readInt rank, readInt group with
    | some chunkHash, some rank, some group =>
      (decodeTags lib token).bind (ObjectKey.make chunkHash rank (modelDecoder model) group salt)
    | _, _, _ => .error .malformed
  | _ => .error (.value "invalid ObjectKey encoding: expected 4, 5 or 6 fields")

/-- The decoder of raw-block names. -/
def decodeObjectKey (encoded : Text) : Except CodecError ObjectKey :=
  decodeStorageKey lib lib.unquote encoded

def decodeFsFilename (filename : Text) : Except CodecError ObjectKey :=
  if ".data".toList <:+ filename then
    decodeStorageKey lib restoreSlashes (filename.take (filename.length - 5))
  else .error (.value "invalid ObjectKey filename extension")

/-- Four, five or six fields, none of which holds the separator. -/
lemma splitOn_formatStorageKey (key : ObjectKey) (alternate : Bool) (width : Nat) {text : Text}
    (htext : '@' ∉ text) : (formatStorageKey lib key text alternate width).splitOn '@' =
      [text, formatHex alternate width key.kvRank, formatHex false 0 key.objectGroupId,
        bytesHex key.chunkHash] ++
      if encodeTags lib key.tags ≠ [] then [key.cacheSalt, encodeTags lib key.tags]
      else if key.cacheSalt ≠ [] then [key.cacheSalt] else [] := by
  have htoken : '@' ∉ encodeTags lib key.tags := by
    unfold encodeTags
    split <;> simp [lib.encode_plain]
  have hsalt : '@' ∉ key.cacheSalt := fun h =>
    key.salt_plain (any_eq_true.mpr ⟨'@', by decide, decide_eq_true h⟩)
  refine .trans (congrArg _ ?_) (splitOn_intercalate '@' ?_ (by simp))
  · simp only [formatStorageKey]
    split <;> try split
    all_goals simp [intercalate]
  · split <;> try split
    all_goals simp [htext, at_not_mem_formatHex, at_not_mem_bytesHex, htoken, hsalt]

/-- The key comes back under what the decoder makes of its model's text. -/
lemma decode_formatStorageKey (key : ObjectKey) (alternate : Bool) (width : Nat) {text : Text}
    {decoder : Text → Text} (htext : '@' ∉ text) (hname : '@' ∉ decoder text) :
    decodeStorageKey lib decoder (formatStorageKey lib key text alternate width) =
      .ok (key.renamed (decoder text) hname) := by
  have hsplit := splitOn_formatStorageKey lib key alternate width htext
  have htags := decodeTags_encodeTags lib key.tags_valid
  have hmake := key.make_renamed hname
  by_cases htoken : encodeTags lib key.tags = []
  · by_cases hsalt : key.cacheSalt = []
    all_goals
      rw [htoken] at htags
      simp_all [decodeStorageKey, bytesFromHex_bytesHex, readInt_formatHex, Except.bind]
  · simp [decodeStorageKey, hsplit, htoken, bytesFromHex_bytesHex, readInt_formatHex, htags,
      hmake, Except.bind]

/-- Names that give their keys back are not shared. -/
lemma injOn_of_decode {keys : Set ObjectKey} {encode : ObjectKey → Text}
    {decode : Text → Except CodecError ObjectKey}
    (h : ∀ key ∈ keys, decode (encode key) = .ok key) : Set.InjOn encode keys := by
  intro key hkey key' hkey' hname
  have hdecode := h key hkey
  rw [hname, h key' hkey'] at hdecode
  exact (Except.ok.inj hdecode).symm

/-- Storage names and raw-block names give their keys back, so no two keys
share one. -/
theorem names_decode_to_key :
    (∀ key, decodeStorageKey lib id (encodeStorageKey lib key) = .ok key ∧
      decodeObjectKey lib (objectKeyToString lib key) = .ok key) ∧
      Function.Injective (encodeStorageKey lib) ∧ Function.Injective (objectKeyToString lib) := by
  have hstorage : ∀ key, decodeStorageKey lib id (encodeStorageKey lib key) = .ok key :=
    fun key => decode_formatStorageKey lib key _ _ key.model_plain key.model_plain
  have hraw : ∀ key, decodeObjectKey lib (objectKeyToString lib key) = .ok key := by
    intro key
    have hname := lib.unquote_quote key.modelName
    simp only [decodeObjectKey, objectKeyToString,
      decode_formatStorageKey lib key _ _ (lib.quote_plain _) (hname ▸ key.model_plain), hname,
      ObjectKey.renamed]
  exact ⟨fun key => ⟨hstorage key, hraw key⟩,
    Set.injOn_univ.mp (injOn_of_decode fun key _ => hstorage key),
    Set.injOn_univ.mp (injOn_of_decode fun key _ => hraw key)⟩

/-! ## File names -/

/-- The name holds a mark, or one whose last character is yet to be made of a
slash. -/
def HoldsMark (model : Text) : Prop := "-SEP-".toList <:+: model ∨ "-SEP/".toList <:+: model

lemma at_not_mem_markSlashes {model : Text} (h : '@' ∉ model) : '@' ∉ markSlashes model := by
  simp only [markSlashes, mem_flatMap, not_exists, not_and]
  intro c hc
  split
  · simp
  · rintro hat
    exact h (mem_singleton.mp hat ▸ hc)

lemma at_not_mem_restoreSlashes {text : Text} (h : '@' ∉ text) : '@' ∉ restoreSlashes text := by
  fun_induction restoreSlashes text <;> simp_all

/-- A character that no mark begins with was in the name. -/
lemma cons_prefix_markSlashes {a : Char} (hdash : a ≠ '-') (hslash : a ≠ '/') (text model : Text) :
    a :: text <+: markSlashes model ↔ ∃ rest, model = a :: rest ∧ text <+: markSlashes rest := by
  cases model with
  | nil => simp [markSlashes]
  | cons c model =>
    by_cases hc : c = '/'
    · simp [markSlashes, hc, hdash, hslash.symm]
    · simp [markSlashes, hc, eq_comm]

/-- The rest of a mark comes after a dash of the name's own, or of a slash's. -/
lemma tail_prefix_markSlashes (model : Text) :
    ['S', 'E', 'P', '-'] <+: markSlashes model ↔
      ['S', 'E', 'P', '-'] <+: model ∨ ['S', 'E', 'P', '/'] <+: model := by
  have hdash : ∀ rest, ['-'] <+: markSlashes rest ↔ ['-'] <+: rest ∨ ['/'] <+: rest := by
    intro rest
    cases rest with
    | nil => simp [markSlashes]
    | cons c rest => by_cases hc : c = '/' <;> simp [markSlashes, hc, eq_comm]
  simp only [cons_prefix_markSlashes (by decide : 'S' ≠ '-') (by decide),
    cons_prefix_markSlashes (by decide : 'E' ≠ '-') (by decide),
    cons_prefix_markSlashes (by decide : 'P' ≠ '-') (by decide), hdash]
  constructor
  · rintro ⟨_, rfl, _, rfl, rest, rfl, h⟩
    simpa using h
  · rintro (⟨rest, rfl⟩ | ⟨rest, rfl⟩) <;> simp

/-- Restoring undoes marking on the names without marks. -/
lemma restoreSlashes_markSlashes_iff (model : Text) :
    restoreSlashes (markSlashes model) = model ↔ ¬ HoldsMark model := by
  induction model with
  | nil => simp [markSlashes, restoreSlashes, HoldsMark]
  | cons c model ih =>
    by_cases hslash : c = '/'
    · subst hslash
      simp only [HoldsMark] at ih
      simp [markSlashes, restoreSlashes, HoldsMark, infix_cons_iff] at ih ⊢
      exact ih
    · have hmark : markSlashes (c :: model) = c :: markSlashes model := by
        simp [markSlashes, hslash]
      by_cases hhead : c = '-' ∧ ['S', 'E', 'P', '-'] <+: markSlashes model
      · obtain ⟨rfl, rest, hrest⟩ := hhead
        have hholds := (tail_prefix_markSlashes model).mp ⟨rest, hrest⟩
        rw [hmark, ← hrest]
        simp [restoreSlashes, HoldsMark, infix_cons_iff]
        tauto
      · have hkeep : restoreSlashes (c :: markSlashes model) =
            c :: restoreSlashes (markSlashes model) := by
          rw [restoreSlashes]
          rintro text rfl h
          exact hhead ⟨rfl, text, h.symm⟩
        rw [tail_prefix_markSlashes] at hhead
        rw [hmark, hkeep, cons_inj_right, ih]
        simp only [HoldsMark, infix_cons_iff, String.reduceToList, cons_prefix_cons, eq_comm]
        tauto

/-- The file name is read under what is left of its slashes. -/
lemma decodeFsFilename_encodeFsFilename (key : ObjectKey) :
    decodeFsFilename lib (encodeFsFilename lib key) =
      .ok (key.renamed (restoreSlashes (markSlashes key.modelName))
        (at_not_mem_restoreSlashes (at_not_mem_markSlashes key.model_plain))) := by
  have hplain := at_not_mem_markSlashes key.model_plain
  rw [decodeFsFilename, encodeFsFilename, if_pos (suffix_append _ _)]
  simp [decode_formatStorageKey lib key _ _ hplain (at_not_mem_restoreSlashes hplain)]

/-- A file name gives its key back if and only if the model name holds no mark;
such keys do not share files. -/
theorem filename_decodes_iff :
    (∀ key, decodeFsFilename lib (encodeFsFilename lib key) = .ok key ↔
      ¬ HoldsMark key.modelName) ∧
      Set.InjOn (encodeFsFilename lib) { key | ¬ HoldsMark key.modelName } := by
  have hdecode : ∀ key, decodeFsFilename lib (encodeFsFilename lib key) = .ok key ↔
      ¬ HoldsMark key.modelName := by
    intro key
    rw [decodeFsFilename_encodeFsFilename, ← restoreSlashes_markSlashes_iff, Except.ok.injEq]
    exact ⟨congrArg ObjectKey.modelName, fun h => by simp only [ObjectKey.renamed, h]⟩
  exact ⟨hdecode, injOn_of_decode fun key hkey => (hdecode key).mpr hkey⟩

/-- The key with a hash of no bytes and the model name. -/
def named (name : Text) (h : '@' ∉ name) : ObjectKey :=
  { chunkHash := [], kvRank := 0, modelName := name, objectGroupId := 0, cacheSalt := []
    tags := ⟨[], .nil⟩, model_plain := h, group_nonneg := Int.le_refl 0, salt_plain := by simp
    salt_short := Nat.zero_le 128, tags_valid := by simp [ValidTags] }

instance encodableChar : Encodable Char := .ofLeftInverse Char.toNat Char.ofNat Char.ofNat_toNat

/-- Codecs that count: the names below hold no token. -/
def unaryCodecs : TextCodecs where
  encode tags := replicate (Encodable.encode tags) 'a'
  decode text := Encodable.decode text.length
  quote text := replicate (Encodable.encode text) 'a'
  unquote text := (Encodable.decode text.length).getD []
  decode_encode := by simp
  encode_plain := by simp
  unquote_quote := by simp
  quote_plain := by simp

/-- Two models, one file, which is read as the file of the second. -/
theorem models_share_file :
    encodeFsFilename unaryCodecs (named "a-SEP-b".toList (by decide)) =
      encodeFsFilename unaryCodecs (named "a/b".toList (by decide)) ∧
    decodeFsFilename unaryCodecs
      (encodeFsFilename unaryCodecs (named "a-SEP-b".toList (by decide))) =
      .ok (named "a/b".toList (by decide)) :=
  ⟨rfl, decodeFsFilename_encodeFsFilename ..⟩

end LMCache.L2Adapters.KeyCodec
