/-
  Nimbus.Core.Payload
  ───────────────────
  **PAYLOADS OF THE DOCUMENTED KINDS, AND WHAT PYDANTIC MAKES OF THEM.**

  A payload is a dict, a pydantic model or nothing.  The keys of a dict are
  distinct strings or integers; its values are JSON values or objects that
  pydantic can write, a model being one of them.  What pydantic writes is a
  JSON value whose objects have distinct keys, and such a value is written the
  same way again after it has been read.

    • `Numeral`            — the texts of floats;
    • `Json.WellFormed`    — the JSON values a serializer writes;
    • `PyVal.Documented`   — the payloads it is asked to write;
    • `PyVal.dump_wellFormed` — **a documented payload can be written**;
    • `Json.dump_toPy`     — **what was read is written as it was.**
-/
import Nimbus.Core.PyVal

namespace Nimbus

/-! ## §1. Values. -/

/-- The text of a finite float. -/
def Numeral (text : String) : Prop :=
  text ≠ "" ∧ ∀ c ∈ text.toList, c.isDigit = true ∨ c ∈ ['+', '-', '.', 'e', 'E']

mutual

/-- A JSON value: its objects have distinct keys, its floats are finite. -/
def Json.WellFormed : Json → Prop
  | .null => True
  | .bool _ => True
  | .int _ => True
  | .float text => Numeral text
  | .str _ => True
  | .arr xs => Json.WellFormedList xs
  | .obj fields => (fields.map Prod.fst).Nodup ∧ Json.WellFormedFields fields

def Json.WellFormedList : List Json → Prop
  | [] => True
  | x :: xs => x.WellFormed ∧ Json.WellFormedList xs

def Json.WellFormedFields : List (String × Json) → Prop
  | [] => True
  | (_, v) :: kvs => v.WellFormed ∧ Json.WellFormedFields kvs

end

mutual

/-- A value of a documented kind: pydantic can write every object in it, and the
keys of a dict are distinct strings or integers. -/
def PyVal.Documented : PyVal → Prop
  | .none => True
  | .bool _ => True
  | .int _ => True
  | .float text => Numeral text
  | .str _ => True
  | .list xs => PyVal.DocumentedList xs
  | .dict items => (items.map Prod.fst).Nodup ∧ PyVal.DocumentedItems items
  | .other _ json => ∃ j, json = some j ∧ j.WellFormed

def PyVal.DocumentedList : List PyVal → Prop
  | [] => True
  | x :: xs => x.Documented ∧ PyVal.DocumentedList xs

def PyVal.DocumentedItems : List (PyKey × PyVal) → Prop
  | [] => True
  | (k, v) :: kvs => k ≠ .none ∧ v.Documented ∧ PyVal.DocumentedItems kvs

end

theorem Json.wellFormedFields_iff {fields : List (String × Json)} :
    Json.WellFormedFields fields ↔ ∀ f ∈ fields, f.2.WellFormed := by
  induction fields with
  | nil => exact ⟨fun _ f hf => (nomatch hf), fun _ => trivial⟩
  | cons f fields ih =>
      show f.2.WellFormed ∧ Json.WellFormedFields fields ↔ _
      rw [ih, List.forall_mem_cons]

theorem PyVal.DocumentedItems.key_ne {items : List (PyKey × PyVal)}
    (h : PyVal.DocumentedItems items) : ∀ k ∈ items.map Prod.fst, k ≠ .none := by
  induction items with
  | nil => intro k hk; cases hk
  | cons kv items ih =>
      intro k hk
      rcases List.mem_cons.mp hk with rfl | hk
      · exact h.1
      · exact ih h.2.2 k hk

/-! ## §2. Dicts with distinct keys. -/

section Dict

variable {κ υ : Type} [DecidableEq κ]

theorem dictSet_of_notMem {d : List (κ × υ)} {k : κ} (h : k ∉ d.map Prod.fst) (v : υ) :
    dictSet d k v = d ++ [(k, v)] := by
  induction d with
  | nil => rfl
  | cons kv d ih =>
      rw [List.map_cons, List.mem_cons, not_or] at h
      show (if kv.1 = k then _ else kv :: dictSet d k v) = _
      rw [if_neg (Ne.symm h.1), ih h.2]
      rfl

theorem dictUpdate_append {items : List (κ × υ)} : ∀ {d : List (κ × υ)},
    ((d ++ items).map Prod.fst).Nodup → dictUpdate d items = d ++ items := by
  induction items with
  | nil => intro d _; exact (List.append_nil d).symm
  | cons kv items ih =>
      intro d h
      have hd : kv.1 ∉ d.map Prod.fst := by
        rw [List.map_append, List.nodup_append] at h
        intro hc
        exact h.2.2 kv.1 hc kv.1 List.mem_cons_self rfl
      show dictUpdate (dictSet d kv.1 kv.2) items = _
      rw [dictSet_of_notMem hd, ih (by rw [List.append_assoc]; exact h), List.append_assoc]
      rfl

/-- A dict made of items with distinct keys. -/
theorem dictUpdate_nil {items : List (κ × υ)} (h : (items.map Prod.fst).Nodup) :
    dictUpdate [] items = items := dictUpdate_append h

theorem mem_dictSet {d : List (κ × υ)} {k : κ} {v : υ} {kv : κ × υ} (h : kv ∈ dictSet d k v) :
    kv = (k, v) ∨ kv ∈ d := by
  induction d with
  | nil => exact Or.inl (List.mem_singleton.mp h)
  | cons x d ih =>
      obtain ⟨k₀, v₀⟩ := x
      unfold dictSet at h
      split at h
      next =>
        rcases List.mem_cons.mp h with rfl | h
        · exact Or.inl rfl
        · exact Or.inr (List.mem_cons_of_mem _ h)
      next =>
        rcases List.mem_cons.mp h with rfl | h
        · exact Or.inr List.mem_cons_self
        · exact (ih h).imp_right (List.mem_cons_of_mem _)

theorem mem_dictUpdate {items : List (κ × υ)} {kv : κ × υ} : ∀ {d : List (κ × υ)},
    kv ∈ dictUpdate d items → kv ∈ d ∨ kv ∈ items := by
  induction items with
  | nil => intro d h; exact Or.inl h
  | cons x items ih =>
      intro d h
      rcases ih (d := dictSet d x.1 x.2) h with h | h
      · rcases mem_dictSet h with rfl | h
        · exact Or.inr List.mem_cons_self
        · exact Or.inl h
      · exact Or.inr (List.mem_cons_of_mem _ h)

end Dict

/-! ## §3. Writing. -/

theorem Json.mkObj_wellFormed {fields : List (String × Json)}
    (h : ∀ f ∈ fields, f.2.WellFormed) : (Json.mkObj fields).WellFormed := by
  refine ⟨dictUpdate_nodup fields List.nodup_nil, Json.wellFormedFields_iff.mpr fun f hf => ?_⟩
  rcases mem_dictUpdate hf with hf | hf
  · cases hf
  · exact h f hf

mutual

/-- **A documented payload can be written**, as a JSON value. -/
theorem PyVal.dump_wellFormed : ∀ v : PyVal, v.Documented → ∃ j, v.dump = some j ∧ j.WellFormed
  | .none, _ => ⟨.null, rfl, trivial⟩
  | .bool b, _ => ⟨.bool b, rfl, trivial⟩
  | .int n, _ => ⟨.int n, rfl, trivial⟩
  | .float text, h => ⟨.float text, rfl, h⟩
  | .str s, _ => ⟨.str s, rfl, trivial⟩
  | .list xs, h => by
      obtain ⟨js, hjs, hwf⟩ := PyVal.dumpList_wellFormed xs h
      refine ⟨.arr js, ?_, hwf⟩
      show (PyVal.dumpList xs).map Json.arr = _
      rw [hjs]
      rfl
  | .dict items, h => by
      obtain ⟨fields, hfields, hwf⟩ := PyVal.dumpItems_wellFormed items h.2
      refine ⟨Json.mkObj fields, ?_, Json.mkObj_wellFormed hwf⟩
      show (PyVal.dumpItems items).map Json.mkObj = _
      rw [hfields]
      rfl
  | .other _ json, h => by
      obtain ⟨j, hj, hwf⟩ := h
      exact ⟨j, hj, hwf⟩

theorem PyVal.dumpList_wellFormed : ∀ xs : List PyVal, PyVal.DocumentedList xs →
    ∃ js, PyVal.dumpList xs = some js ∧ Json.WellFormedList js
  | [], _ => ⟨[], rfl, trivial⟩
  | x :: xs, h => by
      obtain ⟨j, hj, hwf⟩ := PyVal.dump_wellFormed x h.1
      obtain ⟨js, hjs, hwfs⟩ := PyVal.dumpList_wellFormed xs h.2
      refine ⟨j :: js, ?_, hwf, hwfs⟩
      show (x.dump).bind (fun j => (PyVal.dumpList xs).map (j :: ·)) = _
      rw [hj, hjs]
      rfl

theorem PyVal.dumpItems_wellFormed : ∀ items : List (PyKey × PyVal), PyVal.DocumentedItems items →
    ∃ fields, PyVal.dumpItems items = some fields ∧ ∀ f ∈ fields, f.2.WellFormed
  | [], _ => ⟨[], rfl, fun f hf => (nomatch hf)⟩
  | (k, v) :: kvs, h => by
      obtain ⟨j, hj, hwf⟩ := PyVal.dump_wellFormed v h.2.1
      obtain ⟨fields, hfields, hwfs⟩ := PyVal.dumpItems_wellFormed kvs h.2.2
      refine ⟨(k.dump, j) :: fields, ?_, List.forall_mem_cons.mpr ⟨hwf, hwfs⟩⟩
      show (v.dump).bind (fun j => (PyVal.dumpItems kvs).map ((k.dump, j) :: ·)) = _
      rw [hj, hfields]
      rfl

end

/-- The keys that are written. -/
theorem PyVal.keys_dumpItems {items : List (PyKey × PyVal)} : ∀ {fields : List (String × Json)},
    PyVal.dumpItems items = some fields →
      fields.map Prod.fst = (items.map Prod.fst).map PyKey.dump := by
  induction items with
  | nil =>
      intro fields h
      obtain rfl := Option.some.inj h
      rfl
  | cons kv items ih =>
      intro fields h
      obtain ⟨j, -, h⟩ := Option.bind_eq_some_iff.mp h
      obtain ⟨rest, hrest, rfl⟩ := Option.map_eq_some_iff.mp h
      show kv.1.dump :: rest.map Prod.fst = kv.1.dump :: _
      rw [ih hrest]

/-! ## §4. Reading, and writing again. -/

mutual

/-- **What was read is written as it was.** -/
theorem Json.dump_toPy : ∀ j : Json, j.WellFormed → j.toPy.dump = some j
  | .null, _ => rfl
  | .bool _, _ => rfl
  | .int _, _ => rfl
  | .float _, _ => rfl
  | .str _, _ => rfl
  | .arr xs, h => by
      show (PyVal.dumpList (Json.toPyList xs)).map Json.arr = _
      rw [Json.dumpList_toPyList xs h]
      rfl
  | .obj fields, h => by
      show (PyVal.dumpItems (Json.toPyFields fields)).map Json.mkObj = _
      rw [Json.dumpItems_toPyFields fields h.2]
      show some (Json.obj (dictUpdate [] fields)) = _
      rw [dictUpdate_nil h.1]

theorem Json.dumpList_toPyList : ∀ xs : List Json, Json.WellFormedList xs →
    PyVal.dumpList (Json.toPyList xs) = some xs
  | [], _ => rfl
  | x :: xs, h => by
      show (x.toPy.dump).bind (fun j => (PyVal.dumpList (Json.toPyList xs)).map (j :: ·)) = _
      rw [Json.dump_toPy x h.1, Json.dumpList_toPyList xs h.2]
      rfl

theorem Json.dumpItems_toPyFields : ∀ fields : List (String × Json), Json.WellFormedFields fields →
    PyVal.dumpItems (Json.toPyFields fields) = some fields
  | [], _ => rfl
  | (k, v) :: kvs, h => by
      show (v.toPy.dump).bind (fun j => (PyVal.dumpItems (Json.toPyFields kvs)).map
        (((PyKey.str k).dump, j) :: ·)) = _
      rw [Json.dump_toPy v h.1, Json.dumpItems_toPyFields kvs h.2]
      rfl

end

mutual

/-- What was read is a payload of a documented kind. -/
theorem Json.documented_toPy : ∀ j : Json, j.WellFormed → j.toPy.Documented
  | .null, _ => trivial
  | .bool _, _ => trivial
  | .int _, _ => trivial
  | .float _, h => h
  | .str _, _ => trivial
  | .arr xs, h => Json.documented_toPyList xs h
  | .obj fields, h => ⟨nodup_toPyFields h.1, Json.documented_toPyFields fields h.2⟩

theorem Json.documented_toPyList : ∀ xs : List Json, Json.WellFormedList xs →
    PyVal.DocumentedList (Json.toPyList xs)
  | [], _ => trivial
  | x :: xs, h => ⟨Json.documented_toPy x h.1, Json.documented_toPyList xs h.2⟩

theorem Json.documented_toPyFields : ∀ fields : List (String × Json), Json.WellFormedFields fields →
    PyVal.DocumentedItems (Json.toPyFields fields)
  | [], _ => trivial
  | (_, v) :: kvs, h =>
      ⟨fun hc => (nomatch hc), Json.documented_toPy v h.1, Json.documented_toPyFields kvs h.2⟩

end

end Nimbus
