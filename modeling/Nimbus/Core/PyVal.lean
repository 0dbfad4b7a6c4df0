/-
  Nimbus.Core.PyVal
  ─────────────────
  **THE VALUES EVENT PAYLOADS ARE MADE OF.**

  Two forms of a payload: the Python value a service builds (`PyVal`), which
  may hold objects that only `str` or pydantic know how to write, and the JSON
  value that is stored in the outbox and sent on the wire (`Json`).

    • `dumps`   — `json.dumps(value, sort_keys=True, default=str)`;
    • `clash`   — the two keys it cannot sort;
    • `dump`    — the value under pydantic's `model_dump(mode="json")`;
    • `toPy`    — a decoded JSON value as Python sees it;
    • `dictSet` — assignment to a key of a dict, which keeps the key's place;
    • `get?_toPy_dump` — **under a string key arrives what pydantic writes for
                  its value.**
-/
import Nimbus.Lib.JsonText
import Mathlib.Data.List.Sort

namespace Nimbus

open Lib.JsonText (quoted)

/-- A JSON value.  A float is kept as the text that denotes it. -/
inductive Json where
  | null
  | bool (b : Bool)
  | int (n : Int)
  | float (text : String)
  | str (s : String)
  | arr (xs : List Json)
  | obj (fields : List (String × Json))

/-- A key of a Python dict, as far as `json.dumps` takes it. -/
inductive PyKey where
  | str (s : String)
  | int (n : Int)
  | none
deriving DecidableEq

/-- A Python value.  `other text json` is any further object: `text` is what
`str` makes of it, `json` what pydantic writes for it, if it can. -/
inductive PyVal where
  | none
  | bool (b : Bool)
  | int (n : Int)
  | float (text : String)
  | str (s : String)
  | list (xs : List PyVal)
  | dict (items : List (PyKey × PyVal))
  | other (text : String) (json : Option Json)

/-! ## §1. Dicts. -/

/-- `d[k] = v`: an existing key keeps its place. -/
def dictSet {κ υ : Type} [DecidableEq κ] (d : List (κ × υ)) (k : κ) (v : υ) : List (κ × υ) :=
  match d with
  | [] => [(k, v)]
  | (k', v') :: rest => if k' = k then (k, v) :: rest else (k', v') :: dictSet rest k v

/-- `d.update(items)`. -/
def dictUpdate {κ υ : Type} [DecidableEq κ] (d items : List (κ × υ)) : List (κ × υ) :=
  items.foldl (fun acc kv => dictSet acc kv.1 kv.2) d

/-- `d.get(k)`, with `none` for an absent key. -/
def dictGet {κ υ : Type} [DecidableEq κ] (d : List (κ × υ)) (k : κ) : Option υ :=
  (d.find? (fun kv => kv.1 = k)).map Prod.snd

section Dict

variable {κ υ : Type} [DecidableEq κ]

@[simp] theorem dictGet_nil (k : κ) : dictGet ([] : List (κ × υ)) k = none := rfl

theorem dictGet_cons (kv : κ × υ) (d : List (κ × υ)) (k : κ) :
    dictGet (kv :: d) k = if kv.1 = k then some kv.2 else dictGet d k := by
  by_cases h : kv.1 = k
  · simp [dictGet, h]
  · simp [dictGet, h]

@[simp] theorem dictGet_dictSet (d : List (κ × υ)) (k k' : κ) (v : υ) :
    dictGet (dictSet d k v) k' = if k = k' then some v else dictGet d k' := by
  induction d with
  | nil => simp [dictSet, dictGet_cons]
  | cons kv d ih =>
      obtain ⟨k₀, v₀⟩ := kv
      unfold dictSet
      by_cases h : k₀ = k
      · subst h
        simp only [↓reduceIte, dictGet_cons]
        split <;> rfl
      · simp only [if_neg h, dictGet_cons, ih]
        by_cases h₀ : k₀ = k'
        · subst h₀
          simp [Ne.symm h]
        · simp [h₀]

/-- After an update the last item of a key counts, else the old value. -/
theorem dictGet_dictUpdate (items : List (κ × υ)) : ∀ (d : List (κ × υ)) (k : κ),
    dictGet (dictUpdate d items) k = (dictGet items.reverse k).or (dictGet d k) := by
  induction items with
  | nil => intro d k; rfl
  | cons kv items ih =>
      intro d k
      have happ : ∀ l : List (κ × υ), dictGet (l ++ [kv]) k
          = (dictGet l k).or (if kv.1 = k then some kv.2 else none) := by
        intro l
        induction l with
        | nil => simp [dictGet_cons]
        | cons x l ihl =>
            rw [List.cons_append, dictGet_cons, dictGet_cons, ihl]
            split <;> rfl
      show dictGet (dictUpdate (dictSet d kv.1 kv.2) items) k = _
      rw [ih, List.reverse_cons, happ, dictGet_dictSet]
      cases dictGet items.reverse k with
      | some v => rfl
      | none => simp only [Option.none_or]; split <;> rfl

end Dict

/-! ## §2. `json.dumps`. -/

/-- The text of a key. -/
def PyKey.text : PyKey → String
  | .str s => s
  | .int n => toString n
  | .none => "null"

/-- Python orders strings by code points and integers by value. -/
def PyKey.le : PyKey → PyKey → Bool
  | .str s, .str s' => decide (s ≤ s')
  | .int n, .int n' => decide (n ≤ n')
  | _, _ => false

/-- Keys of two kinds cannot be ordered, and `None` not at all: `sort_keys`
raises `TypeError` unless there is nothing to compare. -/
def sortable (ks : List PyKey) : Bool :=
  decide (ks.length ≤ 1) || ks.all (fun | .str _ => true | _ => false)
    || ks.all (fun | .int _ => true | _ => false)

/-- The parts of a list or object with `", "` between them. -/
def commaSep (parts : List (List Char)) : List Char := List.intercalate ", ".toList parts

/-- One member of an object. -/
def member (k : String) (v : List Char) : List Char := quoted k.toList ++ ": ".toList ++ v

/-- The members of an object in key order. -/
def sortedMembers (items : List (PyKey × List Char)) : List (List Char) :=
  (items.insertionSort (fun a b => PyKey.le a.1 b.1 = true)).map fun kv => member kv.1.text kv.2

/-- `{…}`, the members sorted by key. -/
def objectText (items : List (PyKey × List Char)) : Option (List Char) :=
  if sortable (items.map Prod.fst) then
    some ('\x7b' :: (commaSep (sortedMembers items) ++ ['\x7d']))
  else none

mutual

/-- The text `json.dumps(v, sort_keys=True, default=str)` writes; `none` where
it raises `TypeError`. -/
def dumpsChars : PyVal → Option (List Char)
  | .none => some "null".toList
  | .bool b => some (if b then "true".toList else "false".toList)
  | .int n => some (toString n).toList
  | .float text => some text.toList
  | .str s => some (quoted s.toList)
  | .list xs => (dumpsList xs).map fun ts => '[' :: (commaSep ts ++ [']'])
  | .dict items => (dumpsItems items).bind objectText
  | .other text _ => some (quoted text.toList)

def dumpsList : List PyVal → Option (List (List Char))
  | [] => some []
  | x :: xs => (dumpsChars x).bind fun t => (dumpsList xs).map (t :: ·)

def dumpsItems : List (PyKey × PyVal) → Option (List (PyKey × List Char))
  | [] => some []
  | (k, v) :: kvs => (dumpsChars v).bind fun t => (dumpsItems kvs).map ((k, t) :: ·)

end

/-- `json.dumps(v, sort_keys=True, default=str)`. -/
def dumps (v : PyVal) : Option String := (dumpsChars v).map String.ofList

/-! The keys at which `json.dumps` fails. -/

/-- `type(k).__name__`. -/
def PyKey.typeName : PyKey → String
  | .str _ => "str"
  | .int _ => "int"
  | .none => "NoneType"

/-- Two keys that `<` takes. -/
def PyKey.comparable : PyKey → PyKey → Bool
  | .str _, .str _ => true
  | .int _, .int _ => true
  | _, _ => false

/-- The comparison at which the sort of fewer than 64 keys fails: those before the
first key of another kind are of one kind, and it is the left operand. -/
def firstClash : List PyKey → Option (PyKey × PyKey)
  | k :: k' :: ks => if PyKey.comparable k k' then firstClash (k' :: ks) else some (k', k)
  | _ => Option.none

mutual

/-- The keys of a dict are sorted before its values are written, these in the order
of their keys. -/
def PyVal.clash : PyVal → Option (PyKey × PyKey)
  | .list xs => PyVal.clashList xs
  | .dict items => (firstClash (items.map Prod.fst)).or
      (((PyVal.clashItems items).insertionSort (fun a b => PyKey.le a.1 b.1 = true)).findSome?
        Prod.snd)
  | _ => Option.none

def PyVal.clashList : List PyVal → Option (PyKey × PyKey)
  | [] => Option.none
  | x :: xs => (PyVal.clash x).or (PyVal.clashList xs)

def PyVal.clashItems : List (PyKey × PyVal) → List (PyKey × Option (PyKey × PyKey))
  | [] => []
  | (k, v) :: kvs => (k, PyVal.clash v) :: PyVal.clashItems kvs

end

/-! ## §3. Pydantic's JSON mode, and back. -/

/-- The object key pydantic writes. -/
def PyKey.dump : PyKey → String
  | .str s => s
  | .int n => toString n
  | .none => "None"

/-- An object with the given members, later ones overwriting earlier ones. -/
def Json.mkObj (fields : List (String × Json)) : Json := .obj (dictUpdate [] fields)

mutual

/-- The value under `model_dump(mode="json")`; `none` where pydantic raises
`PydanticSerializationError`. -/
def PyVal.dump : PyVal → Option Json
  | .none => some .null
  | .bool b => some (.bool b)
  | .int n => some (.int n)
  | .float text => some (.float text)
  | .str s => some (.str s)
  | .list xs => (PyVal.dumpList xs).map .arr
  | .dict items => (PyVal.dumpItems items).map .mkObj
  | .other _ json => json

def PyVal.dumpList : List PyVal → Option (List Json)
  | [] => some []
  | x :: xs => (PyVal.dump x).bind fun j => (PyVal.dumpList xs).map (j :: ·)

def PyVal.dumpItems : List (PyKey × PyVal) → Option (List (String × Json))
  | [] => some []
  | (k, v) :: kvs => (PyVal.dump v).bind fun j => (PyVal.dumpItems kvs).map ((k.dump, j) :: ·)

end

mutual

/-- A decoded JSON value as a Python value. -/
def Json.toPy : Json → PyVal
  | .null => .none
  | .bool b => .bool b
  | .int n => .int n
  | .float text => .float text
  | .str s => .str s
  | .arr xs => .list (Json.toPyList xs)
  | .obj fields => .dict (Json.toPyFields fields)

def Json.toPyList : List Json → List PyVal
  | [] => []
  | x :: xs => x.toPy :: Json.toPyList xs

def Json.toPyFields : List (String × Json) → List (PyKey × PyVal)
  | [] => []
  | (k, v) :: kvs => (.str k, v.toPy) :: Json.toPyFields kvs

end

/-- `value.get(k)` for a dict; `none` where `value` is no dict and has no
`get`. -/
def PyVal.get? (v : PyVal) (k : String) : Option PyVal :=
  match v with
  | .dict items => some ((dictGet items (.str k)).getD .none)
  | _ => Option.none

/-- The member of a JSON object, for a reader that ignores absent ones. -/
def Json.field? (j : Json) (k : String) : Option Json :=
  match j with
  | .obj fields => dictGet fields k
  | _ => none

/-! ## §4. A key survives the wire. -/

section Keys

variable {κ υ : Type} [DecidableEq κ]

theorem key_mem_dictSet (d : List (κ × υ)) (k k' : κ) (v : υ) :
    k' ∈ (dictSet d k v).map Prod.fst ↔ k' = k ∨ k' ∈ d.map Prod.fst := by
  induction d with
  | nil => simp [dictSet]
  | cons kv d ih =>
      obtain ⟨k₀, v₀⟩ := kv
      unfold dictSet
      split
      next h => simp [h]
      next h =>
        rw [List.map_cons, List.mem_cons, ih, List.map_cons, List.mem_cons]
        tauto

/-- The keys of a dict stay distinct. -/
theorem dictSet_nodup {d : List (κ × υ)} (h : (d.map Prod.fst).Nodup) (k : κ) (v : υ) :
    ((dictSet d k v).map Prod.fst).Nodup := by
  induction d with
  | nil => simp [dictSet]
  | cons kv d ih =>
      obtain ⟨k₀, v₀⟩ := kv
      rw [List.map_cons, List.nodup_cons] at h
      unfold dictSet
      split
      next he => rw [List.map_cons, List.nodup_cons, ← he]; exact h
      next he =>
        rw [List.map_cons, List.nodup_cons, key_mem_dictSet]
        exact ⟨fun hm => hm.elim he h.1, ih h.2⟩

theorem dictUpdate_nodup (items : List (κ × υ)) : ∀ {d : List (κ × υ)},
    (d.map Prod.fst).Nodup → ((dictUpdate d items).map Prod.fst).Nodup := by
  induction items with
  | nil => intro d h; exact h
  | cons kv items ih => intro d h; exact ih (dictSet_nodup h kv.1 kv.2)

theorem key_mem_dictUpdate (items : List (κ × υ)) : ∀ (d : List (κ × υ)) (k : κ),
    k ∈ (dictUpdate d items).map Prod.fst ↔ k ∈ d.map Prod.fst ∨ k ∈ items.map Prod.fst := by
  induction items with
  | nil => intro d k; simp [dictUpdate]
  | cons kv items ih =>
      intro d k
      show k ∈ (dictUpdate (dictSet d kv.1 kv.2) items).map Prod.fst ↔ _
      rw [ih, key_mem_dictSet, List.map_cons, List.mem_cons]
      tauto

theorem dictGet_eq_some {d : List (κ × υ)} {k : κ} {v : υ} (hd : (d.map Prod.fst).Nodup) :
    dictGet d k = some v ↔ (k, v) ∈ d := by
  induction d with
  | nil => simp
  | cons kv d ih =>
      obtain ⟨k₀, v₀⟩ := kv
      rw [List.map_cons, List.nodup_cons] at hd
      rw [dictGet_cons, List.mem_cons, Prod.mk.injEq]
      by_cases hk : k₀ = k
      · subst hk
        have hnot : (k₀, v) ∉ d := fun hm => hd.1 (List.mem_map.mpr ⟨_, hm, rfl⟩)
        simp [hnot, eq_comm]
      · simp [hk, Ne.symm hk, ih hd.2]

/-- Where the keys are distinct the order of the items does not matter. -/
theorem dictGet_reverse {d : List (κ × υ)} (hd : (d.map Prod.fst).Nodup) (k : κ) :
    dictGet d.reverse k = dictGet d k := by
  have hrev : (d.reverse.map Prod.fst).Nodup := by
    rw [List.map_reverse]
    exact List.nodup_reverse.mpr hd
  refine Option.ext fun v => ?_
  rw [dictGet_eq_some hrev, dictGet_eq_some hd, List.mem_reverse]

end Keys

/-- All keys of a dict are strings. -/
def StrKeys (items : List (PyKey × PyVal)) : Prop := ∀ k ∈ items.map Prod.fst, ∃ s, k = PyKey.str s

/-- What is written under a string key is the dumped value. -/
theorem dictGet_dumpItems {items : List (PyKey × PyVal)} (hs : StrKeys items) (k : String) :
    ∀ {fields : List (String × Json)}, PyVal.dumpItems items = some fields →
      dictGet fields k = (dictGet items (.str k)).bind PyVal.dump
      ∧ fields.map (fun f => PyKey.str f.1) = items.map Prod.fst := by
  induction items with
  | nil =>
      intro fields h
      obtain rfl := Option.some.inj h
      exact ⟨rfl, rfl⟩
  | cons kv items ih =>
      obtain ⟨k₀, v₀⟩ := kv
      intro fields h
      obtain ⟨s₀, rfl⟩ := hs k₀ List.mem_cons_self
      obtain ⟨j₀, hj₀, h⟩ := Option.bind_eq_some_iff.mp h
      obtain ⟨rest, hrest, rfl⟩ := Option.map_eq_some_iff.mp h
      have htail : StrKeys items := fun k' hk' => hs k' (List.mem_cons_of_mem _ hk')
      obtain ⟨hget, hkeys⟩ := ih htail hrest
      refine ⟨?_, ?_⟩
      · rw [dictGet_cons, dictGet_cons]
        by_cases hk : s₀ = k
        · subst hk
          rw [if_pos (show (PyKey.str s₀).dump = s₀ from rfl), if_pos rfl]
          exact hj₀.symm
        · rw [if_neg (show ¬ (PyKey.str s₀).dump = k from hk),
            if_neg fun hc => hk (PyKey.str.inj hc)]
          exact hget
      · rw [List.map_cons, List.map_cons, hkeys]
        rfl

theorem dictGet_toPyFields (fields : List (String × Json)) (k : String) :
    dictGet (Json.toPyFields fields) (.str k) = (dictGet fields k).map Json.toPy := by
  induction fields with
  | nil => rfl
  | cons f fields ih =>
      obtain ⟨k₀, j₀⟩ := f
      rw [Json.toPyFields, dictGet_cons, dictGet_cons]
      by_cases hk : k₀ = k
      · rw [if_pos hk, if_pos (congrArg PyKey.str hk)]
        rfl
      · rw [if_neg hk, if_neg fun hc => hk (PyKey.str.inj hc), ih]

theorem keys_toPyFields (fields : List (String × Json)) :
    (Json.toPyFields fields).map Prod.fst = fields.map fun f => PyKey.str f.1 := by
  induction fields with
  | nil => rfl
  | cons f fields ih =>
      rw [Json.toPyFields, List.map_cons, List.map_cons, ih]

/-- A dict that has been read has string keys, and they are as distinct as those
of the object. -/
theorem strKeys_toPyFields (fields : List (String × Json)) : StrKeys (Json.toPyFields fields) := by
  intro k hk
  rw [keys_toPyFields] at hk
  obtain ⟨f, -, rfl⟩ := List.mem_map.mp hk
  exact ⟨f.1, rfl⟩

theorem nodup_toPyFields {fields : List (String × Json)} (h : (fields.map Prod.fst).Nodup) :
    ((Json.toPyFields fields).map Prod.fst).Nodup := by
  rw [keys_toPyFields]
  show (fields.map (PyKey.str ∘ Prod.fst)).Nodup
  rw [← List.map_map]
  exact h.map fun _ _ => PyKey.str.inj

/-- The fields that are written are as distinct as the keys of the dict. -/
theorem nodup_dumpItems {items : List (PyKey × PyVal)} {fields : List (String × Json)}
    (hs : StrKeys items) (hd : (items.map Prod.fst).Nodup)
    (hf : PyVal.dumpItems items = some fields) : (fields.map Prod.fst).Nodup := by
  refine List.Nodup.of_map PyKey.str ?_
  rw [List.map_map]
  show (fields.map fun f => PyKey.str f.1).Nodup
  rw [(dictGet_dumpItems hs "" hf).2]
  exact hd

/-- **Under a string key arrives what pydantic writes for its value**, in a dict
whose keys are distinct strings; what arrives is such a dict again. -/
theorem get?_toPy_dump {items : List (PyKey × PyVal)} {j : Json} (hs : StrKeys items)
    (hd : (items.map Prod.fst).Nodup) (h : (PyVal.dict items).dump = some j) :
    ∃ items', j.toPy = .dict items' ∧ StrKeys items' ∧ (items'.map Prod.fst).Nodup
      ∧ ∀ k, dictGet items' (.str k)
          = ((dictGet items (.str k)).bind PyVal.dump).map Json.toPy := by
  obtain ⟨fields, hf, rfl⟩ := Option.map_eq_some_iff.mp h
  have hfields := nodup_dumpItems hs hd hf
  refine ⟨Json.toPyFields (dictUpdate [] fields), rfl, strKeys_toPyFields _,
    nodup_toPyFields (dictUpdate_nodup fields List.nodup_nil), fun k => ?_⟩
  rw [dictGet_toPyFields, dictGet_dictUpdate, dictGet_reverse hfields,
    (dictGet_dumpItems hs k hf).1, dictGet_nil, Option.or_none]

mutual

/-- What has been read can be written again. -/
theorem Json.dump_toPy_isSome : ∀ j : Json, (j.toPy.dump).isSome = true
  | .null => rfl
  | .bool _ => rfl
  | .int _ => rfl
  | .float _ => rfl
  | .str _ => rfl
  | .arr xs => by
      have h := Json.dumpList_toPyList_isSome xs
      show ((PyVal.dumpList (Json.toPyList xs)).map Json.arr).isSome = true
      rw [Option.isSome_map]
      exact h
  | .obj fields => by
      have h := Json.dumpItems_toPyFields_isSome fields
      show ((PyVal.dumpItems (Json.toPyFields fields)).map Json.mkObj).isSome = true
      rw [Option.isSome_map]
      exact h

theorem Json.dumpList_toPyList_isSome : ∀ xs : List Json,
    (PyVal.dumpList (Json.toPyList xs)).isSome = true
  | [] => rfl
  | x :: xs => by
      obtain ⟨j, hj⟩ := Option.isSome_iff_exists.mp (Json.dump_toPy_isSome x)
      obtain ⟨js, hjs⟩ := Option.isSome_iff_exists.mp (Json.dumpList_toPyList_isSome xs)
      show ((x.toPy.dump).bind fun j => (PyVal.dumpList (Json.toPyList xs)).map (j :: ·)).isSome = _
      rw [hj, hjs]
      rfl

theorem Json.dumpItems_toPyFields_isSome : ∀ fields : List (String × Json),
    (PyVal.dumpItems (Json.toPyFields fields)).isSome = true
  | [] => rfl
  | (k, v) :: kvs => by
      obtain ⟨j, hj⟩ := Option.isSome_iff_exists.mp (Json.dump_toPy_isSome v)
      obtain ⟨js, hjs⟩ := Option.isSome_iff_exists.mp (Json.dumpItems_toPyFields_isSome kvs)
      show ((v.toPy.dump).bind fun j => (PyVal.dumpItems (Json.toPyFields kvs)).map
        (((PyKey.str k).dump, j) :: ·)).isSome = _
      rw [hj, hjs]
      rfl

end

/-- Only a string is written as a string and read as one. -/
theorem Json.dump_toPy_str {j : Json} {s : String} :
    j.toPy.dump = some (.str s) ↔ j = .str s := by
  constructor
  · intro h
    cases j with
    | str s' => exact Option.some.inj h
    | null => cases h
    | bool b => cases h
    | int n => cases h
    | float t => cases h
    | arr xs =>
        obtain ⟨js, -, hjs⟩ := Option.map_eq_some_iff.mp h
        cases hjs
    | obj fields =>
        obtain ⟨js, -, hjs⟩ := Option.map_eq_some_iff.mp h
        cases hjs
  · rintro rfl
    rfl

end Nimbus
