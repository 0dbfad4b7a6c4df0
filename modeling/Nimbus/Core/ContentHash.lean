/-
  Nimbus.Core.ContentHash
  ───────────────────────
  **WHICH PAYLOADS KEEP THEIR CONTENT HASH ON THE WIRE.**

  `content_hash` writes the payload with `json.dumps(..., default=str)`; the
  outbox row and the message are written by pydantic.  The two agree on JSON
  values, but not on every object (`str` of a datetime is not its ISO form, and
  `str` of a model is no object at all), and `json.dumps` sorts integer keys by
  their value, while the consumer sees them as strings.

    • `KeysAgree`, `PyVal.Stable` — where the two serializers agree;
    • `value_dumpsChars`   — the canonical text is the text of a JSON value;
    • `sortedEntries_iff`  — when two dicts are written the same;
    • `dumpsChars_toPy_iff` — **a payload that has been written and read has the
                             same canonical text exactly when it is stable**;
    • `received`           — an envelope on its way to the consumer;
    • `content_hash_iff`   — **the content hash survives exactly then.**
-/
import Nimbus.Core.Messaging
import Nimbus.Core.Payload
import Nimbus.Lib.JsonValue

namespace Nimbus

open Lib.JsonText

/-! ## §1. Canonical texts are texts of JSON values. -/

theorem digits_token (n : Nat) : ∀ c ∈ (toString n).toList, isTokenChar c = true := by
  intro c hc
  have hdigits : (toString n).toList = Nat.toDigits 10 n := Nat.toList_repr
  rw [hdigits] at hc
  have hd : c.isDigit = true := Nat.isDigit_of_mem_toDigits (by decide) (by decide) hc
  unfold isTokenChar Char.isAlphanum
  rw [hd]
  simp

theorem toString_ne_nil (n : Nat) : (toString n).toList ≠ [] := by
  intro hc
  have hempty : Nat.repr n = "" := String.toList_inj.mp hc
  exact Nat.repr_ne_empty hempty

theorem toString_negSucc (n : Nat) :
    (toString (Int.negSucc n)).toList = '-' :: (toString (n + 1)).toList := String.toList_append

/-- An integer is written as a token, and so is a float. -/
theorem int_token (n : Int) : ∀ c ∈ (toString n).toList, isTokenChar c = true := by
  cases n with
  | ofNat n => exact digits_token n
  | negSucc n =>
      rw [toString_negSucc]
      intro c hc
      rcases List.mem_cons.mp hc with rfl | hc
      · decide
      · exact digits_token (n + 1) c hc

theorem numeral_token {text : String} (h : Numeral text) :
    ∀ c ∈ text.toList, isTokenChar c = true := by
  intro c hc
  rcases h.2 c hc with hd | hmem
  · unfold isTokenChar Char.isAlphanum
    rw [hd]
    simp
  · have hall : ['+', '-', '.', 'e', 'E'].all isTokenChar = true := by decide
    exact List.all_eq_true.mp hall c hmem

theorem int_ne_nil (n : Int) : (toString n).toList ≠ [] := by
  cases n with
  | ofNat n => exact toString_ne_nil n
  | negSucc n =>
      rw [toString_negSucc]
      exact List.cons_ne_nil _ _

/-- A token is no string literal. -/
theorem token_ne_quoted {t : List Char} (h : ∀ c ∈ t, isTokenChar c = true) (s : List Char) :
    t ≠ quoted s := by
  intro hc
  have hquote : quote ∈ t := by
    rw [hc]
    exact List.mem_cons_self
  exact absurd (h quote hquote) (by decide)

/-- A member under the text of its key. -/
def textEntry (kv : PyKey × List Char) : List Char × List Char := (kv.1.text.toList, kv.2)

/-- The members of an object in the order in which they are written. -/
def sortedEntries (items : List (PyKey × List Char)) : List (List Char × List Char) :=
  (items.insertionSort (fun a b => PyKey.le a.1 b.1 = true)).map textEntry

theorem sortedMembers_eq (items : List (PyKey × List Char)) :
    sortedMembers items = (sortedEntries items).map entry := by
  unfold sortedMembers sortedEntries
  rw [List.map_map]
  rfl

theorem mem_sortedEntries {items : List (PyKey × List Char)} {m : List Char × List Char}
    (h : m ∈ sortedEntries items) : ∃ kv ∈ items, m = textEntry kv := by
  obtain ⟨kv, hkv, rfl⟩ := List.mem_map.mp h
  exact ⟨kv, (List.mem_insertionSort _).mp hkv, rfl⟩

/-- What the texts of the members have, the entries have. -/
theorem values_sortedEntries {items : List (PyKey × List Char)} (h : ∀ kv ∈ items, Value kv.2) :
    ∀ m ∈ sortedEntries items, Value m.2 := by
  intro m hm
  obtain ⟨kv, hkv, rfl⟩ := mem_sortedEntries hm
  exact h kv hkv

mutual

/-- **The canonical text of a documented payload is the text of a JSON value.** -/
theorem value_dumpsChars : ∀ (v : PyVal) {t : List Char}, v.Documented → dumpsChars v = some t →
    Value t
  | .none, _, _, h => by
      obtain rfl := Option.some.inj h
      exact Value.token (by decide) (List.all_eq_true.mp (by decide))
  | .bool b, _, _, h => by
      obtain rfl := Option.some.inj h
      cases b with
      | true => exact Value.token (by decide) (List.all_eq_true.mp (by decide))
      | false => exact Value.token (by decide) (List.all_eq_true.mp (by decide))
  | .int n, _, _, h => by
      obtain rfl := Option.some.inj h
      exact Value.token (int_ne_nil n) (int_token n)
  | .float text, _, hd, h => by
      obtain rfl := Option.some.inj h
      exact Value.token (fun hc => hd.1 (String.toList_inj.mp hc)) (numeral_token hd)
  | .str s, _, _, h => by
      obtain rfl := Option.some.inj h
      exact Value.literal _
  | .list xs, _, hd, h => by
      obtain ⟨ts, hts, rfl⟩ := Option.map_eq_some_iff.mp h
      -- a container, by the induction over its elements
      exact Value.array (values_dumpsList xs hd hts)
  | .dict items, _, hd, h => by
      obtain ⟨its, hits, h⟩ := Option.bind_eq_some_iff.mp h
      unfold objectText at h
      split at h
      next =>
        obtain rfl := Option.some.inj h
        rw [sortedMembers_eq]
        exact Value.object (values_sortedEntries (values_dumpsItems items hd.2 hits))
      next => cases h
  | .other text _, _, _, h => by
      obtain rfl := Option.some.inj h
      exact Value.literal _

theorem values_dumpsList : ∀ (xs : List PyVal) {ts : List (List Char)}, PyVal.DocumentedList xs →
    dumpsList xs = some ts → ∀ t ∈ ts, Value t
  | [], _, _, h => by
      obtain rfl := Option.some.inj h
      intro t ht
      cases ht
  | x :: xs, _, hd, h => by
      obtain ⟨t, ht, h⟩ := Option.bind_eq_some_iff.mp h
      obtain ⟨ts, hts, rfl⟩ := Option.map_eq_some_iff.mp h
      exact List.forall_mem_cons.mpr
        ⟨value_dumpsChars x hd.1 ht, values_dumpsList xs hd.2 hts⟩

theorem values_dumpsItems : ∀ (items : List (PyKey × PyVal)) {its : List (PyKey × List Char)},
    PyVal.DocumentedItems items → dumpsItems items = some its → ∀ kv ∈ its, Value kv.2
  | [], _, _, h => by
      obtain rfl := Option.some.inj h
      intro kv hkv
      cases hkv
  | (k, v) :: kvs, _, hd, h => by
      obtain ⟨t, ht, h⟩ := Option.bind_eq_some_iff.mp h
      obtain ⟨its, hits, rfl⟩ := Option.map_eq_some_iff.mp h
      exact List.forall_mem_cons.mpr
        ⟨value_dumpsChars v hd.2.1 ht, values_dumpsItems kvs hd.2.2 hits⟩

end

theorem keys_dumpsItems {items : List (PyKey × PyVal)} : ∀ {its : List (PyKey × List Char)},
    dumpsItems items = some its → its.map Prod.fst = items.map Prod.fst := by
  induction items with
  | nil =>
      intro its h
      obtain rfl := Option.some.inj h
      rfl
  | cons kv items ih =>
      intro its h
      obtain ⟨t, -, h⟩ := Option.bind_eq_some_iff.mp h
      obtain ⟨rest, hrest, rfl⟩ := Option.map_eq_some_iff.mp h
      show kv.1 :: rest.map Prod.fst = kv.1 :: _
      rw [ih hrest]

/-! ## §2. Keys. -/

/-- Keys of one kind only. -/
def OneKind (ks : List PyKey) : Prop :=
  (∀ k ∈ ks, ∃ s, k = .str s) ∨ ∀ k ∈ ks, ∃ n, k = .int n

theorem sortable_of_strings {ks : List PyKey} (h : ∀ k ∈ ks, ∃ s, k = .str s) :
    sortable ks = true := by
  unfold sortable
  refine Bool.or_eq_true_iff.mpr (Or.inl (Bool.or_eq_true_iff.mpr (Or.inr ?_)))
  rw [List.all_eq_true]
  intro k hk
  obtain ⟨s, rfl⟩ := h k hk
  rfl

/-- Keys that can be sorted are of one kind. -/
theorem sortable_oneKind {ks : List PyKey} (hne : ∀ k ∈ ks, k ≠ .none) (h : sortable ks = true) :
    OneKind ks := by
  unfold sortable at h
  rcases Bool.or_eq_true_iff.mp h with h | hints
  · rcases Bool.or_eq_true_iff.mp h with hlen | hstrs
    · -- one key at most, of any kind
      cases ks with
      | nil => exact Or.inl fun k hk => (nomatch hk)
      | cons k ks =>
          have hlen' : ks.length + 1 ≤ 1 := of_decide_eq_true hlen
          obtain rfl : ks = [] := List.eq_nil_of_length_eq_zero (by omega)
          cases k with
          | none => exact absurd rfl (hne .none List.mem_cons_self)
          | str s => exact Or.inl fun k hk => ⟨s, List.mem_singleton.mp hk⟩
          | int n => exact Or.inr fun k hk => ⟨n, List.mem_singleton.mp hk⟩
    · -- strings only
      refine Or.inl fun k hk => ?_
      have hk' := List.all_eq_true.mp hstrs k hk
      cases k with
      | str s => exact ⟨s, rfl⟩
      | int n => cases hk'
      | none => cases hk'
  · -- integers only
    refine Or.inr fun k hk => ?_
    have hk' := List.all_eq_true.mp hints k hk
    cases k with
    | int n => exact ⟨n, rfl⟩
    | str s => cases hk'
    | none => cases hk'

theorem toString_nat_inj {m n : Nat} (h : toString m = toString n) : m = n := by
  have hm : (toString m).toList = Nat.toDigits 10 m := Nat.toList_repr
  have hn : (toString n).toList = Nat.toDigits 10 n := Nat.toList_repr
  rw [h, hn] at hm
  have hvalue := congrArg (fun l => Nat.ofDigitChars 10 l 0) hm
  simp only [Nat.ofDigitChars_ten_toDigits] at hvalue
  exact hvalue.symm

/-- An integer is not written like another one. -/
theorem toString_int_inj {m n : Int} (h : toString m = toString n) : m = n := by
  -- only negative numbers begin with a minus sign
  have hneg : ∀ (a b : Nat), toString (Int.ofNat a) ≠ toString (Int.negSucc b) := by
    intro a b hc
    have hmem : '-' ∈ (toString a).toList := by
      show '-' ∈ (toString (Int.ofNat a)).toList
      rw [hc, toString_negSucc]
      exact List.mem_cons_self
    have hdigits : (toString a).toList = Nat.toDigits 10 a := Nat.toList_repr
    rw [hdigits] at hmem
    exact absurd (Nat.isDigit_of_mem_toDigits (by decide) (by decide) hmem) (by decide)
  cases m with
  | ofNat a =>
      cases n with
      | ofNat b => exact congrArg Int.ofNat (toString_nat_inj h)
      | negSucc b => exact absurd h (hneg a b)
  | negSucc a =>
      cases n with
      | ofNat b => exact absurd h.symm (hneg b a)
      | negSucc b =>
          have hlists := congrArg String.toList h
          rw [toString_negSucc, toString_negSucc] at hlists
          have htail := toString_nat_inj (String.toList_inj.mp (List.cons.inj hlists).2)
          have heq : a = b := by omega
          rw [heq]

/-- Keys of one kind are told apart by their texts. -/
theorem OneKind.text_inj {ks : List PyKey} (h : OneKind ks) : ∀ k ∈ ks, ∀ k' ∈ ks,
    k.text = k'.text → k = k' := by
  intro k hk k' hk' heq
  rcases h with hstr | hint
  · obtain ⟨s, rfl⟩ := hstr k hk
    obtain ⟨s', rfl⟩ := hstr k' hk'
    exact congrArg PyKey.str heq
  · obtain ⟨n, rfl⟩ := hint k hk
    obtain ⟨n', rfl⟩ := hint k' hk'
    exact congrArg PyKey.int (toString_int_inj heq)

theorem OneKind.le_total {ks : List PyKey} (h : OneKind ks) : ∀ k ∈ ks, ∀ k' ∈ ks,
    k.le k' = true ∨ k'.le k = true := by
  intro k hk k' hk'
  rcases h with hstr | hint
  · obtain ⟨s, rfl⟩ := hstr k hk
    obtain ⟨s', rfl⟩ := hstr k' hk'
    exact (String.le_total s s').imp (fun h => decide_eq_true h) fun h => decide_eq_true h
  · obtain ⟨n, rfl⟩ := hint k hk
    obtain ⟨n', rfl⟩ := hint k' hk'
    exact (Int.le_total n n').imp (fun h => decide_eq_true h) fun h => decide_eq_true h

theorem OneKind.le_antisymm {ks : List PyKey} (h : OneKind ks) : ∀ k ∈ ks, ∀ k' ∈ ks,
    k.le k' = true → k'.le k = true → k = k' := by
  intro k hk k' hk' hle hge
  rcases h with hstr | hint
  · obtain ⟨s, rfl⟩ := hstr k hk
    obtain ⟨s', rfl⟩ := hstr k' hk'
    exact congrArg PyKey.str (String.le_antisymm (of_decide_eq_true hle) (of_decide_eq_true hge))
  · obtain ⟨n, rfl⟩ := hint k hk
    obtain ⟨n', rfl⟩ := hint k' hk'
    exact congrArg PyKey.int (Int.le_antisymm (of_decide_eq_true hle) (of_decide_eq_true hge))

theorem PyKey.text_le_of_eq {k k' : PyKey} (h : k = k') : k.text ≤ k'.text := by
  subst h
  exact String.le_refl _

/-- Sorting by keys of the form `f a`, where these are ordered. -/
theorem pairwise_sort_of {κ υ : Type} {f : κ → PyKey}
    (htotal : ∀ a b, (f a).le (f b) = true ∨ (f b).le (f a) = true)
    (htrans : ∀ a b c, (f a).le (f b) = true → (f b).le (f c) = true → (f a).le (f c) = true)
    {l : List (PyKey × υ)} (hl : ∀ k ∈ l.map Prod.fst, ∃ a, k = f a) :
    (l.insertionSort fun a b => a.1.le b.1 = true).Pairwise fun a b => a.1.le b.1 = true := by
  have hfrom : ∃ l₀ : List (κ × υ), l = l₀.map fun x => (f x.1, x.2) := by
    clear htotal htrans
    induction l with
    | nil => exact ⟨[], rfl⟩
    | cons x l ih =>
        obtain ⟨a, ha⟩ := hl x.1 List.mem_cons_self
        obtain ⟨l₀, rfl⟩ := ih fun k hk => hl k (List.mem_cons_of_mem _ hk)
        exact ⟨(a, x.2) :: l₀, by rw [List.map_cons, ← ha]⟩
  obtain ⟨l₀, rfl⟩ := hfrom
  have : Std.Total fun x y : κ × υ => (f x.1).le (f y.1) = true := ⟨fun x y => htotal x.1 y.1⟩
  have : IsTrans (κ × υ) fun x y => (f x.1).le (f y.1) = true :=
    ⟨fun x y z => htrans x.1 y.1 z.1⟩
  rw [← List.map_insertionSort (fun x y : κ × υ => (f x.1).le (f y.1) = true)
    (fun a b : PyKey × υ => a.1.le b.1 = true) (fun x => (f x.1, x.2)) l₀
    (fun _ _ _ _ => Iff.rfl), List.pairwise_map]
  exact List.pairwise_insertionSort _ l₀

/-- A dict with keys of one kind is sorted. -/
theorem OneKind.pairwise_sort {υ : Type} {l : List (PyKey × υ)} (h : OneKind (l.map Prod.fst)) :
    (l.insertionSort fun a b => a.1.le b.1 = true).Pairwise fun a b => a.1.le b.1 = true := by
  rcases h with hstr | hint
  · refine pairwise_sort_of (f := PyKey.str) (fun a b => ?_) (fun a b c hab hbc => ?_) hstr
    · exact (String.le_total a b).imp (fun h => decide_eq_true h) fun h => decide_eq_true h
    · exact decide_eq_true (String.le_trans (of_decide_eq_true hab) (of_decide_eq_true hbc))
  · refine pairwise_sort_of (f := PyKey.int) (fun a b => ?_) (fun a b c hab hbc => ?_) hint
    · exact (Int.le_total a b).imp (fun h => decide_eq_true h) fun h => decide_eq_true h
    · exact decide_eq_true (Int.le_trans (of_decide_eq_true hab) (of_decide_eq_true hbc))

theorem sortable_of_firstClash : ∀ {ks : List PyKey}, firstClash ks = none → sortable ks = true
  | [], _ => rfl
  | [_], _ => rfl
  | k :: k' :: ks, h => by
      unfold firstClash at h
      by_cases hk : PyKey.comparable k k' = true
      · rw [if_pos hk] at h
        have ih := sortable_of_firstClash h
        cases k <;> cases k' <;> simp_all [PyKey.comparable, sortable]
        all_goals
          rintro x hx
          rcases ih with rfl | ih
          · cases hx
          · exact ih x hx
      · rw [if_neg hk] at h
        cases h

theorem firstClash_comparable : ∀ {ks : List PyKey} {kk : PyKey × PyKey},
    firstClash ks = some kk → PyKey.comparable kk.1 kk.2 = false
  | [], _, h => by cases h
  | [_], _, h => by cases h
  | k :: k' :: ks, kk, h => by
      unfold firstClash at h
      by_cases hk : PyKey.comparable k k' = true
      · rw [if_pos hk] at h
        exact firstClash_comparable h
      · rw [if_neg hk] at h
        obtain rfl := Option.some.inj h
        cases k <;> cases k' <;> first | rfl | exact absurd rfl hk

mutual

/-- **Where `json.dumps` raises, two keys of a dict clash.** -/
theorem clash_of_dumpsChars : ∀ {v : PyVal}, dumpsChars v = none → ∃ kk, v.clash = some kk
  | .none, h => by cases h
  | .bool _, h => by cases h
  | .int _, h => by cases h
  | .float _, h => by cases h
  | .str _, h => by cases h
  | .other _ _, h => by cases h
  | .list _, h => clashList_of_dumpsList (Option.map_eq_none_iff.mp h)
  | .dict items, h => by
      have hdict : (dumpsItems items).bind objectText = none := h
      show ∃ kk, (firstClash (items.map Prod.fst)).or _ = some kk
      cases hkeys : firstClash (items.map Prod.fst) with
      | some kk => exact ⟨kk, rfl⟩
      | none =>
          have hvalues : dumpsItems items = none := by
            cases hits : dumpsItems items with
            | none => rfl
            | some its =>
                rw [hits, Option.bind_some] at hdict
                unfold objectText at hdict
                rw [keys_dumpsItems hits, if_pos (sortable_of_firstClash hkeys)] at hdict
                cases hdict
          obtain ⟨kv, hkv, hsome⟩ := clashItems_of_dumpsItems hvalues
          rw [Option.none_or]
          apply Option.isSome_iff_exists.mp
          rw [List.findSome?_isSome_iff]
          exact ⟨kv, (List.mem_insertionSort _).mpr hkv, hsome⟩

theorem clashList_of_dumpsList : ∀ {xs : List PyVal}, dumpsList xs = none →
    ∃ kk, PyVal.clashList xs = some kk
  | [], h => by cases h
  | x :: xs, h => by
      apply Option.isSome_iff_exists.mp
      show ((PyVal.clash x).or (PyVal.clashList xs)).isSome = true
      rw [Option.isSome_or, Bool.or_eq_true]
      cases hx : dumpsChars x with
      | none => exact Or.inl (Option.isSome_iff_exists.mpr (clash_of_dumpsChars hx))
      | some t =>
          have hxs : dumpsList xs = none := by simpa [dumpsList, hx] using h
          exact Or.inr (Option.isSome_iff_exists.mpr (clashList_of_dumpsList hxs))

theorem clashItems_of_dumpsItems : ∀ {items : List (PyKey × PyVal)},
    dumpsItems items = none → ∃ kv ∈ PyVal.clashItems items, kv.2.isSome = true
  | [], h => by cases h
  | (k, v) :: kvs, h => by
      cases hv : dumpsChars v with
      | none =>
          exact ⟨(k, PyVal.clash v), List.mem_cons_self,
            Option.isSome_iff_exists.mpr (clash_of_dumpsChars hv)⟩
      | some t =>
          have hkvs : dumpsItems kvs = none := by simpa [dumpsItems, hv] using h
          obtain ⟨kv, hkv, hsome⟩ := clashItems_of_dumpsItems hkvs
          exact ⟨kv, List.mem_cons_of_mem _ hkv, hsome⟩

end

mutual

/-- Keys that clash are of two kinds, or both `None`. -/
theorem comparable_of_clash : ∀ {v : PyVal} {kk : PyKey × PyKey}, v.clash = some kk →
    PyKey.comparable kk.1 kk.2 = false
  | .none, _, h => by cases h
  | .bool _, _, h => by cases h
  | .int _, _, h => by cases h
  | .float _, _, h => by cases h
  | .str _, _, h => by cases h
  | .other _ _, _, h => by cases h
  | .list _, _, h => comparable_of_clashList h
  | .dict items, kk, h => by
      rcases Option.or_eq_some_iff.mp h with hkeys | ⟨-, hvalues⟩
      · exact firstClash_comparable hkeys
      · obtain ⟨kv, hkv, hclash⟩ := List.exists_of_findSome?_eq_some hvalues
        exact comparable_of_clashItems kv ((List.mem_insertionSort _).mp hkv) hclash

theorem comparable_of_clashList : ∀ {xs : List PyVal} {kk : PyKey × PyKey},
    PyVal.clashList xs = some kk → PyKey.comparable kk.1 kk.2 = false
  | [], _, h => by cases h
  | _ :: _, _, h => by
      rcases Option.or_eq_some_iff.mp h with hx | ⟨-, hxs⟩
      · exact comparable_of_clash hx
      · exact comparable_of_clashList hxs

theorem comparable_of_clashItems : ∀ {items : List (PyKey × PyVal)},
    ∀ kv ∈ PyVal.clashItems items, ∀ {kk : PyKey × PyKey}, kv.2 = some kk →
      PyKey.comparable kk.1 kk.2 = false
  | [], _, hkv, _, _ => by cases hkv
  | (_, _) :: _, _, hkv, _, h => by
      rcases List.mem_cons.mp hkv with rfl | hkv
      · exact comparable_of_clash h
      · exact comparable_of_clashItems _ hkv h

end

/-! ## §3. When two dicts are written the same. -/

/-- A member as it is read back: every key is a string. -/
def asRead (kv : PyKey × List Char) : PyKey × List Char := (.str kv.1.text, kv.2)

/-- The keys come in the same order by value and by text. -/
def SameOrder (ks : List PyKey) : Prop :=
  ∀ k ∈ ks, ∀ k' ∈ ks, k.le k' = true → k.text ≤ k'.text

/-- Rearranged members with the same keys in their places are the same. -/
theorem eq_of_perm_of_keys {α β : Type} {l : List (α × β)} : ∀ {l' : List (α × β)}, l.Perm l' →
    l.map Prod.fst = l'.map Prod.fst → (l.map Prod.fst).Nodup → l = l' := by
  induction l with
  | nil => intro l' hp _ _; exact (List.nil_perm.mp hp).symm
  | cons x l ih =>
      intro l' hp hkeys hnodup
      cases l' with
      | nil => cases hkeys
      | cons y l' =>
          obtain ⟨hxy, hrest⟩ := List.cons.inj hkeys
          rw [List.map_cons, List.nodup_cons] at hnodup
          have hx : x = y := by
            rcases List.mem_cons.mp (hp.mem_iff.mp List.mem_cons_self) with hx | hx
            · exact hx
            · -- the key would occur twice
              refine absurd ?_ hnodup.1
              rw [hrest]
              exact List.mem_map.mpr ⟨x, hx, rfl⟩
          subst hx
          rw [ih hp.cons_inv hrest hnodup.2]

theorem sortedEntries_perm (items : List (PyKey × List Char)) :
    (sortedEntries items).Perm (items.map textEntry) :=
  (List.perm_insertionSort _ items).map textEntry

/-- Keys that come in the same order are sorted the same. -/
theorem sortedEntries_asRead {items : List (PyKey × List Char)}
    (hkind : OneKind (items.map Prod.fst)) (horder : SameOrder (items.map Prod.fst)) :
    sortedEntries (items.map asRead) = sortedEntries items := by
  unfold sortedEntries
  rw [← List.map_insertionSort (fun a b : PyKey × List Char => a.1.le b.1 = true)
    (fun a b : PyKey × List Char => a.1.le b.1 = true) asRead items ?_, List.map_map]
  · rfl
  · intro x hx y hy
    have hx' : x.1 ∈ items.map Prod.fst := List.mem_map.mpr ⟨x, hx, rfl⟩
    have hy' : y.1 ∈ items.map Prod.fst := List.mem_map.mpr ⟨y, hy, rfl⟩
    constructor
    · intro hle
      exact decide_eq_true (horder x.1 hx' y.1 hy' hle)
    · intro htext
      rcases hkind.le_total x.1 hx' y.1 hy' with hle | hge
      · exact hle
      · -- the texts are in order both ways, so the keys are the same
        have hsame := hkind.text_inj x.1 hx' y.1 hy'
          (String.le_antisymm (of_decide_eq_true htext) (horder y.1 hy' x.1 hx' hge))
        rw [hsame] at hge ⊢
        exact hge

/-- Keys that are sorted the same come in the same order. -/
theorem sameOrder_of_sortedEntries {items : List (PyKey × List Char)}
    (hkind : OneKind (items.map Prod.fst))
    (h : sortedEntries (items.map asRead) = sortedEntries items) :
    SameOrder (items.map Prod.fst) := by
  have hread : OneKind ((items.map asRead).map Prod.fst) := by
    refine Or.inl fun k hk => ?_
    rw [List.map_map] at hk
    obtain ⟨kv, -, rfl⟩ := List.mem_map.mp hk
    exact ⟨kv.1.text, rfl⟩
  -- the texts of the keys are in order where they are written
  have htexts : (sortedEntries items).Pairwise fun m m' => String.ofList m.1 ≤ String.ofList m'.1 := by
    rw [← h]
    unfold sortedEntries
    rw [List.pairwise_map]
    refine hread.pairwise_sort.imp_of_mem fun {x y} hx hy hle => ?_
    obtain ⟨kv, -, rfl⟩ := List.mem_map.mp ((List.mem_insertionSort _).mp hx)
    obtain ⟨kv', -, rfl⟩ := List.mem_map.mp ((List.mem_insertionSort _).mp hy)
    show String.ofList kv.1.text.toList ≤ String.ofList kv'.1.text.toList
    rw [String.ofList_toList, String.ofList_toList]
    exact of_decide_eq_true hle
  unfold sortedEntries at htexts
  rw [List.pairwise_map] at htexts
  have hmem : ∀ x ∈ items.insertionSort fun a b => a.1.le b.1 = true,
      x.1 ∈ items.map Prod.fst :=
    fun x hx => List.mem_map.mpr ⟨x, (List.mem_insertionSort _).mp hx, rfl⟩
  have hall := List.Pairwise.forall_of_forall_of_flip
    (R := fun x y : PyKey × List Char => x.1.le y.1 = true → x.1.text ≤ y.1.text)
    (l := items.insertionSort fun a b => a.1.le b.1 = true)
    (fun x _ _ => String.le_refl _)
    (htexts.imp fun {x y} htext _ => by
      show x.1.text ≤ y.1.text
      rw [← String.ofList_toList (s := x.1.text), ← String.ofList_toList (s := y.1.text)]
      exact htext)
    (hkind.pairwise_sort.imp_of_mem fun {x y} hx hy hle hge => by
      exact PyKey.text_le_of_eq
        (hkind.le_antisymm x.1 (hmem x hx) y.1 (hmem y hy) hle hge).symm)
  intro k hk k' hk' hle
  obtain ⟨x, hx, rfl⟩ := List.mem_map.mp hk
  obtain ⟨y, hy, rfl⟩ := List.mem_map.mp hk'
  exact hall ((List.mem_insertionSort _).mpr hx) ((List.mem_insertionSort _).mpr hy) hle

/-- **When a dict and what was read back of it are written the same**: their
values are, and the keys come in the same order. -/
theorem sortedEntries_iff {items items' : List (PyKey × List Char)}
    (hkind : OneKind (items.map Prod.fst)) (hnodup : (items.map Prod.fst).Nodup)
    (hkeys : items'.map Prod.fst = items.map fun kv => PyKey.str kv.1.text) :
    sortedEntries items' = sortedEntries items
      ↔ SameOrder (items.map Prod.fst) ∧ items' = items.map asRead := by
  constructor
  · intro h
    -- both lists sort to one: they are permutations of each other
    have hperm : (items'.map textEntry).Perm (items.map textEntry) :=
      (sortedEntries_perm items').symm.trans (h ▸ sortedEntries_perm items)
    -- their keys read the same one by one, and no two of them are equal
    have hcol : (items'.map textEntry).map Prod.fst = (items.map textEntry).map Prod.fst := by
      have htext := congrArg (List.map fun k => (PyKey.text k).toList) hkeys
      rw [List.map_map, List.map_map] at htext
      rw [List.map_map, List.map_map]
      exact htext
    have hcolNodup : ((items'.map textEntry).map Prod.fst).Nodup := by
      rw [hcol, List.map_map]
      show (items.map fun kv => kv.1.text.toList).Nodup
      rw [show (fun kv : PyKey × List Char => kv.1.text.toList)
        = (fun k : PyKey => k.text.toList) ∘ Prod.fst from rfl, ← List.map_map]
      exact hnodup.map_on fun k hk k' hk' heq =>
        hkind.text_inj k hk k' hk' (String.toList_inj.mp heq)
    -- so that the entries are the same as well
    have hentries := eq_of_perm_of_keys hperm hcol hcolNodup
    have hitems : items' = items.map asRead := by
      -- a key that was read has been a string ever since
      have hself : items'.map asRead = items' := by
        refine (List.map_congr_left fun kv hkv => ?_).trans (List.map_id _)
        have hk : kv.1 ∈ items.map fun kv => PyKey.str kv.1.text :=
          hkeys ▸ List.mem_map.mpr ⟨kv, hkv, rfl⟩
        obtain ⟨x, -, hx⟩ := List.mem_map.mp hk
        show (PyKey.str kv.1.text, kv.2) = kv
        rw [← hx]
        exact Prod.ext hx rfl
      have hback := congrArg (List.map fun m : List Char × List Char =>
        (PyKey.str (String.ofList m.1), m.2)) hentries
      rw [List.map_map, List.map_map] at hback
      have hfun : ((fun m : List Char × List Char => (PyKey.str (String.ofList m.1), m.2)) ∘ textEntry)
          = asRead := by
        funext kv
        show (PyKey.str (String.ofList kv.1.text.toList), kv.2) = _
        rw [String.ofList_toList]
        rfl
      rw [hfun, hself] at hback
      exact hback
    subst hitems
    exact ⟨sameOrder_of_sortedEntries hkind h, rfl⟩
  · intro h
    rw [h.2]
    exact sortedEntries_asRead hkind h.1

/-- What `json.dumps` writes for two dicts is the same exactly when it writes the
same members in the same order. -/
theorem objectText_iff {items items' : List (PyKey × List Char)}
    (hvalues : ∀ kv ∈ items, Value kv.2) (hvalues' : ∀ kv ∈ items', Value kv.2)
    (hsort : sortable (items.map Prod.fst) = true)
    (hsort' : sortable (items'.map Prod.fst) = true) :
    objectText items' = objectText items ↔ sortedEntries items' = sortedEntries items := by
  unfold objectText
  rw [if_pos hsort, if_pos hsort', sortedMembers_eq, sortedMembers_eq]
  constructor
  · intro h
    exact object_inj (values_sortedEntries hvalues') (values_sortedEntries hvalues)
      (List.cons.inj (Option.some.inj h)).2
  · intro h
    rw [h]

/-! ## §4. Stable payloads. -/

/-- Keys that can be sorted and are sorted the same as strings. -/
def KeysAgree (ks : List PyKey) : Prop := sortable ks = true ∧ SameOrder ks

mutual

/-- The two serializers agree: `str` of every object in the payload is what
pydantic writes for it, and the keys of every dict agree. -/
def PyVal.Stable : PyVal → Prop
  | .none => True
  | .bool _ => True
  | .int _ => True
  | .float _ => True
  | .str _ => True
  | .list xs => PyVal.StableList xs
  | .dict items => KeysAgree (items.map Prod.fst) ∧ PyVal.StableItems items
  | .other text json => json = some (.str text)

def PyVal.StableList : List PyVal → Prop
  | [] => True
  | x :: xs => x.Stable ∧ PyVal.StableList xs

def PyVal.StableItems : List (PyKey × PyVal) → Prop
  | [] => True
  | (_, v) :: kvs => v.Stable ∧ PyVal.StableItems kvs

end

mutual

/-- What has been read has a canonical text. -/
theorem Json.dumpsChars_toPy : ∀ j : Json, ∃ t, dumpsChars j.toPy = some t
  | .null => ⟨_, rfl⟩
  | .bool _ => ⟨_, rfl⟩
  | .int _ => ⟨_, rfl⟩
  | .float _ => ⟨_, rfl⟩
  | .str _ => ⟨_, rfl⟩
  | .arr xs => by
      obtain ⟨ts, hts⟩ := Json.dumpsList_toPyList xs
      refine ⟨'[' :: (commaSep ts ++ [']']), ?_⟩
      show (dumpsList (Json.toPyList xs)).map (fun ts => '[' :: (commaSep ts ++ [']'])) = _
      rw [hts]
      rfl
  | .obj fields => by
      obtain ⟨its, hits⟩ := Json.dumpsItems_toPyFields fields
      have hsort : sortable (its.map Prod.fst) = true := by
        rw [keys_dumpsItems hits]
        exact sortable_of_strings (strKeys_toPyFields fields)
      refine ⟨'\x7b' :: (commaSep (sortedMembers its) ++ ['\x7d']), ?_⟩
      show (dumpsItems (Json.toPyFields fields)).bind objectText = _
      rw [hits]
      exact if_pos hsort

theorem Json.dumpsList_toPyList : ∀ xs : List Json, ∃ ts, dumpsList (Json.toPyList xs) = some ts
  | [] => ⟨[], rfl⟩
  | x :: xs => by
      obtain ⟨t, ht⟩ := Json.dumpsChars_toPy x
      obtain ⟨ts, hts⟩ := Json.dumpsList_toPyList xs
      refine ⟨t :: ts, ?_⟩
      show (dumpsChars x.toPy).bind (fun t => (dumpsList (Json.toPyList xs)).map (t :: ·)) = _
      rw [ht, hts]
      rfl

theorem Json.dumpsItems_toPyFields : ∀ fields : List (String × Json),
    ∃ its, dumpsItems (Json.toPyFields fields) = some its
  | [] => ⟨[], rfl⟩
  | (k, v) :: kvs => by
      obtain ⟨t, ht⟩ := Json.dumpsChars_toPy v
      obtain ⟨its, hits⟩ := Json.dumpsItems_toPyFields kvs
      refine ⟨(.str k, t) :: its, ?_⟩
      show (dumpsChars v.toPy).bind (fun t => (dumpsItems (Json.toPyFields kvs)).map
        ((PyKey.str k, t) :: ·)) = _
      rw [ht, hits]
      rfl

end

/-- A first and further elements, all of which have to be written. -/
theorem cons_eq_bind {α β : Type} {f : α → β} (hf : Function.Injective f) {t : α} {ts : List β}
    {a : Option α} {b : Option (List β)} :
    some (f t :: ts) = (a.bind fun t => b.map (f t :: ·)) ↔ some t = a ∧ some ts = b := by
  cases a with
  | none => exact ⟨fun h => (nomatch h), fun h => (nomatch h.1)⟩
  | some t' =>
      cases b with
      | none => exact ⟨fun h => (nomatch h), fun h => (nomatch h.2)⟩
      | some ts' =>
          constructor
          · intro h
            obtain ⟨ht, hts⟩ := List.cons.inj (Option.some.inj h)
            exact ⟨congrArg some (hf ht), congrArg some hts⟩
          · intro h
            obtain rfl := Option.some.inj h.1
            obtain rfl := Option.some.inj h.2
            rfl

theorem PyKey.dump_eq_text {k : PyKey} (h : k ≠ .none) : k.dump = k.text := by
  cases k with
  | none => exact absurd rfl h
  | str s => rfl
  | int n => rfl

/-- An object is hashed as its `str`, and read back as what pydantic writes. -/
theorem other_iff {text : String} {j : Json} (hj : j.WellFormed) :
    dumpsChars j.toPy = some (quoted text.toList) ↔ j = .str text := by
  constructor
  · intro h
    cases j with
    | str s =>
        -- only a string has a text in quotes
        obtain ⟨hs, -⟩ := quoted_append_inj (congrArg (· ++ ([] : List Char)) (Option.some.inj h))
        exact congrArg Json.str (String.toList_inj.mp hs)
    | null => exact absurd (Option.some.inj h) (token_ne_quoted (List.all_eq_true.mp (by decide)) _)
    | bool b =>
        have hall : (if b then "true".toList else "false".toList).all isTokenChar = true := by
          cases b <;> decide
        exact absurd (Option.some.inj h) (token_ne_quoted (List.all_eq_true.mp hall) _)
    | int n => exact absurd (Option.some.inj h) (token_ne_quoted (int_token n) _)
    | float t => exact absurd (Option.some.inj h) (token_ne_quoted (numeral_token hj) _)
    | arr xs =>
        obtain ⟨ts, -, hts⟩ := Option.map_eq_some_iff.mp h
        exact absurd (List.cons.inj hts).1 (by decide)
    | obj fields =>
        obtain ⟨its, -, hits⟩ := Option.bind_eq_some_iff.mp h
        unfold objectText at hits
        split at hits
        next => exact absurd (List.cons.inj (Option.some.inj hits)).1 (by decide)
        next => cases hits
  · rintro rfl
    rfl

/-- The keys that are read back. -/
theorem keys_read {items : List (PyKey × PyVal)} {fields : List (String × Json)}
    (hne : ∀ k ∈ items.map Prod.fst, k ≠ .none) (h : PyVal.dumpItems items = some fields) :
    (Json.toPyFields fields).map Prod.fst = (items.map Prod.fst).map fun k => PyKey.str k.text := by
  rw [keys_toPyFields]
  show fields.map (PyKey.str ∘ Prod.fst) = _
  rw [← List.map_map, PyVal.keys_dumpItems h, List.map_map]
  refine List.map_congr_left fun k hk => ?_
  show PyKey.str k.dump = PyKey.str k.text
  rw [PyKey.dump_eq_text (hne k hk)]

/-- Keys of one kind stay distinct when they are written. -/
theorem nodup_written {items : List (PyKey × PyVal)} {fields : List (String × Json)}
    (hne : ∀ k ∈ items.map Prod.fst, k ≠ .none) (hkind : OneKind (items.map Prod.fst))
    (hnodup : (items.map Prod.fst).Nodup) (h : PyVal.dumpItems items = some fields) :
    (fields.map Prod.fst).Nodup := by
  rw [PyVal.keys_dumpItems h]
  refine hnodup.map_on fun k hk k' hk' heq => ?_
  rw [PyKey.dump_eq_text (hne k hk), PyKey.dump_eq_text (hne k' hk')] at heq
  exact hkind.text_inj k hk k' hk' heq

/-- Keys that cannot be sorted: `json.dumps` raises. -/
theorem dumpsChars_unsortable {items : List (PyKey × PyVal)}
    (h : ¬ sortable (items.map Prod.fst) = true) : dumpsChars (.dict items) = none := by
  show (dumpsItems items).bind objectText = none
  cases hits : dumpsItems items with
  | none => rfl
  | some its =>
      show objectText its = none
      unfold objectText
      rw [if_neg (by rw [keys_dumpsItems hits]; exact h)]

/-- **A dict with keys of one kind** is written as before exactly when its values
are and its keys come in the same order. -/
theorem dict_iff_of_sortable {items : List (PyKey × PyVal)} {fields : List (String × Json)}
    (hd : (PyVal.dict items).Documented) (hfields : PyVal.dumpItems items = some fields)
    (hwf : ∀ f ∈ fields, f.2.WellFormed) (hsort : sortable (items.map Prod.fst) = true) :
    dumpsChars (Json.mkObj fields).toPy = dumpsChars (.dict items)
      ↔ SameOrder (items.map Prod.fst)
        ∧ dumpsItems (Json.toPyFields fields) = (dumpsItems items).map (List.map asRead) := by
  have hne := PyVal.DocumentedItems.key_ne hd.2
  have hkind : OneKind (items.map Prod.fst) := sortable_oneKind hne hsort
  have hobj : Json.mkObj fields = .obj fields := by
    unfold Json.mkObj
    rw [dictUpdate_nil (nodup_written hne hkind hd.1 hfields)]
  obtain ⟨its', hits'⟩ := Json.dumpsItems_toPyFields fields
  have hkeys' : its'.map Prod.fst = (items.map Prod.fst).map fun k => PyKey.str k.text :=
    (keys_dumpsItems hits').trans (keys_read hne hfields)
  have hsort' : sortable (its'.map Prod.fst) = true := by
    rw [keys_dumpsItems hits']
    exact sortable_of_strings (strKeys_toPyFields fields)
  rw [hobj]
  show (dumpsItems (Json.toPyFields fields)).bind objectText = (dumpsItems items).bind objectText ↔ _
  rw [hits']
  cases hits : dumpsItems items with
  | none =>
      -- a value cannot be hashed
      constructor
      · intro h
        have htext : objectText its' = none := h
        unfold objectText at htext
        rw [if_pos hsort'] at htext
        cases htext
      · intro h
        cases h.2
  | some its =>
      have hkeys := keys_dumpsItems hits
      have hread : its'.map Prod.fst = its.map fun kv => PyKey.str kv.1.text := by
        rw [hkeys', ← hkeys, List.map_map]
        rfl
      have hwf' : Json.WellFormedFields fields := Json.wellFormedFields_iff.mpr hwf
      have hvalues' : ∀ kv ∈ its', Value kv.2 :=
        values_dumpsItems _ (Json.documented_toPyFields fields hwf') hits'
      show objectText its' = objectText its ↔ _ ∧ some its' = some (its.map asRead)
      rw [objectText_iff (values_dumpsItems items hd.2 hits) hvalues' (hkeys ▸ hsort) hsort',
        sortedEntries_iff (hkeys ▸ hkind) (hkeys ▸ hd.1) hread, hkeys, Option.some.injEq]

/-- **A dict**, given when the members it has after the wire are those it had. -/
theorem dict_iff {items : List (PyKey × PyVal)} {fields : List (String × Json)}
    (hd : (PyVal.dict items).Documented) (hfields : PyVal.dumpItems items = some fields)
    (hwf : ∀ f ∈ fields, f.2.WellFormed)
    (hmembers : dumpsItems (Json.toPyFields fields) = (dumpsItems items).map (List.map asRead)
      ↔ PyVal.StableItems items) :
    dumpsChars (Json.mkObj fields).toPy = dumpsChars (.dict items)
      ↔ (PyVal.dict items).Stable := by
  show _ ↔ (sortable (items.map Prod.fst) = true ∧ SameOrder (items.map Prod.fst))
    ∧ PyVal.StableItems items
  by_cases hsort : sortable (items.map Prod.fst) = true
  · rw [dict_iff_of_sortable hd hfields hwf hsort, hmembers]
    constructor
    · intro h
      exact ⟨⟨hsort, h.1⟩, h.2⟩
    · intro h
      exact ⟨h.1.2, h.2⟩
  · obtain ⟨t, ht⟩ := Json.dumpsChars_toPy (Json.mkObj fields)
    rw [ht, dumpsChars_unsortable hsort]
    constructor
    · intro h
      cases h
    · intro h
      exact absurd h.1.1 hsort

mutual

/-- **A documented payload that has been written and read has the same canonical
text exactly when it is stable.** -/
theorem dumpsChars_toPy_iff : ∀ (v : PyVal) {j : Json}, v.Documented → v.dump = some j →
    (dumpsChars j.toPy = dumpsChars v ↔ v.Stable)
  | .none, _, _, h => by
      obtain rfl := Option.some.inj h
      exact ⟨fun _ => trivial, fun _ => rfl⟩
  | .bool b, _, _, h => by
      obtain rfl := Option.some.inj h
      exact ⟨fun _ => trivial, fun _ => rfl⟩
  | .int n, _, _, h => by
      obtain rfl := Option.some.inj h
      exact ⟨fun _ => trivial, fun _ => rfl⟩
  | .float text, _, _, h => by
      obtain rfl := Option.some.inj h
      exact ⟨fun _ => trivial, fun _ => rfl⟩
  | .str s, _, _, h => by
      obtain rfl := Option.some.inj h
      exact ⟨fun _ => trivial, fun _ => rfl⟩
  | .list xs, _, hd, h => by
      obtain ⟨js, hjs, rfl⟩ := Option.map_eq_some_iff.mp h
      -- the elements are stable exactly when they are written the same
      have hlist := dumpsList_toPyList_iff xs hd hjs
      obtain ⟨js', hjs', hwf⟩ := PyVal.dumpList_wellFormed xs hd
      obtain rfl := Option.some.inj (hjs.symm.trans hjs')
      obtain ⟨ts', hts'⟩ := Json.dumpsList_toPyList js
      show (dumpsList (Json.toPyList js)).map (fun ts => '[' :: (commaSep ts ++ [']']))
        = (dumpsList xs).map (fun ts => '[' :: (commaSep ts ++ [']'])) ↔ PyVal.StableList xs
      rw [← hlist, hts']
      constructor
      · intro htext
        cases hts : dumpsList xs with
        | none =>
            rw [hts] at htext
            cases htext
        | some ts =>
            rw [hts] at htext
            -- where the arrays agree, so do the texts of their elements
            have hvalues' : ∀ t ∈ ts', Value t :=
              values_dumpsList _ (Json.documented_toPyList js hwf) hts'
            rw [array_inj hvalues' (values_dumpsList xs hd hts)
              (List.cons.inj (Option.some.inj htext)).2]
      · intro hts
        rw [← hts]
  | .dict items, _, hd, h => by
      obtain ⟨fields, hfields, rfl⟩ := Option.map_eq_some_iff.mp h
      obtain ⟨fields', hfields', hwf⟩ := PyVal.dumpItems_wellFormed items hd.2
      obtain rfl := Option.some.inj (hfields.symm.trans hfields')
      -- members are sorted anew, under their keys as texts
      exact dict_iff hd hfields hwf (dumpsItems_toPyFields_iff items hd.2 hfields)
  | .other text json, j, hd, h => by
      obtain ⟨j', hj', hwf⟩ := hd
      have hjson : json = some j := h
      obtain rfl := Option.some.inj (hjson.symm.trans hj')
      -- `str` of the value against what pydantic makes of it
      show dumpsChars j.toPy = some (quoted text.toList) ↔ json = some (.str text)
      rw [other_iff hwf, hjson, Option.some.injEq]

theorem dumpsList_toPyList_iff : ∀ (xs : List PyVal) {js : List Json}, PyVal.DocumentedList xs →
    PyVal.dumpList xs = some js →
      (dumpsList (Json.toPyList js) = dumpsList xs ↔ PyVal.StableList xs)
  | [], _, _, h => by
      obtain rfl := Option.some.inj h
      exact ⟨fun _ => trivial, fun _ => rfl⟩
  | x :: xs, _, hd, h => by
      obtain ⟨j, hj, h⟩ := Option.bind_eq_some_iff.mp h
      obtain ⟨js, hjs, rfl⟩ := Option.map_eq_some_iff.mp h
      obtain ⟨t, ht⟩ := Json.dumpsChars_toPy j
      obtain ⟨ts, hts⟩ := Json.dumpsList_toPyList js
      have hhead := dumpsChars_toPy_iff x hd.1 hj
      have htail := dumpsList_toPyList_iff xs hd.2 hjs
      show (dumpsChars j.toPy).bind (fun t => (dumpsList (Json.toPyList js)).map (t :: ·))
        = (dumpsChars x).bind (fun t => (dumpsList xs).map (t :: ·))
          ↔ x.Stable ∧ PyVal.StableList xs
      rw [← hhead, ← htail, ht, hts]
      exact cons_eq_bind (f := fun t => t) fun _ _ heq => heq

theorem dumpsItems_toPyFields_iff : ∀ (items : List (PyKey × PyVal))
    {fields : List (String × Json)}, PyVal.DocumentedItems items →
    PyVal.dumpItems items = some fields →
      (dumpsItems (Json.toPyFields fields) = (dumpsItems items).map (List.map asRead)
        ↔ PyVal.StableItems items)
  | [], _, _, h => by
      obtain rfl := Option.some.inj h
      exact ⟨fun _ => trivial, fun _ => rfl⟩
  | (k, v) :: kvs, _, hd, h => by
      obtain ⟨j, hj, h⟩ := Option.bind_eq_some_iff.mp h
      obtain ⟨fields, hfields, rfl⟩ := Option.map_eq_some_iff.mp h
      obtain ⟨t, ht⟩ := Json.dumpsChars_toPy j
      obtain ⟨its, hits⟩ := Json.dumpsItems_toPyFields fields
      -- the first member by the value, the others by the induction
      have hhead := dumpsChars_toPy_iff v hd.2.1 hj
      have htail := dumpsItems_toPyFields_iff kvs hd.2.2 hfields
      show (dumpsChars j.toPy).bind (fun t => (dumpsItems (Json.toPyFields fields)).map
          ((PyKey.str k.dump, t) :: ·))
        = ((dumpsChars v).bind (fun t => (dumpsItems kvs).map ((k, t) :: ·))).map (List.map asRead)
          ↔ v.Stable ∧ PyVal.StableItems kvs
      rw [← hhead, ← htail, ht, hits, PyKey.dump_eq_text hd.1]
      -- reading the keys goes through the members one by one
      have hread : ((dumpsChars v).bind (fun t => (dumpsItems kvs).map ((k, t) :: ·))).map
          (List.map asRead) = (dumpsChars v).bind fun t =>
            ((dumpsItems kvs).map (List.map asRead)).map ((PyKey.str k.text, t) :: ·) := by
        cases dumpsChars v with
        | none => rfl
        | some t' =>
            cases dumpsItems kvs with
            | none => rfl
            | some its' => rfl
      rw [hread]
      exact cons_eq_bind (f := fun t => (PyKey.str k.text, t)) fun _ _ heq => (Prod.mk.inj heq).2

end

/-! ## §5. Envelopes. -/

namespace EventEnvelope

/-- An envelope on its way: it is stored, rebuilt by the relay, sent as bytes, and
decoded by the consumer. -/
def received (fresh fresh' : Uuid) (e : EventEnvelope) : Except Exn EventEnvelope := do
  let payload ← e.modelDump
  let envelope ← modelValidate fresh payload
  let bytes ← envelope.toBytes
  fromBytes fresh' bytes

/-- What arrives is the envelope with its payload as pydantic has written it. -/
theorem received_eq (fresh fresh' : Uuid) {e : EventEnvelope} {j : Json}
    (hj : e.payload.dump = some j) (hwf : j.WellFormed) :
    e.received fresh fresh' = .ok { e with payload := j.toPy } := by
  have hdump : e.modelDump = .ok (.obj (e.dumpFields j)) := by
    unfold modelDump
    rw [hj]
  obtain ⟨hfirst, bytes, hbytes, hsecond⟩ :=
    rebuilt_and_sent fresh fresh' hdump hj (Json.dump_toPy j hwf)
  unfold received
  simp only [hdump, hfirst, hbytes, hsecond, bind, Except.bind]

/-- The canonical texts of two envelopes that differ in their payloads only. -/
theorem dumps_hashed_iff (e : EventEnvelope) (p : PyVal) :
    dumps (hashed { e with payload := p }) = dumps e.hashed
      ↔ dumpsChars p = dumpsChars e.payload := by
  unfold dumps
  rw [(Option.map_injective fun _ _ h => String.ofList_injective h).eq_iff, dumpsChars_hashed,
    dumpsChars_hashed]
  refine (Option.map_injective fun t t' h => ?_).eq_iff
  -- the text before the payload and the text after it are the same
  simp only [commaSep, List.intercalate, List.intersperse, List.flatten_cons, List.flatten_nil,
    List.append_assoc, List.cons.injEq, true_and] at h
  have hpayload := List.append_cancel_left (List.append_cancel_left (List.append_cancel_left
    (List.append_cancel_left (List.append_cancel_left (List.append_cancel_left h)))))
  unfold member at hpayload
  rw [List.append_assoc, List.append_assoc, List.append_assoc, List.append_assoc] at hpayload
  exact List.append_cancel_right (List.append_cancel_left (List.append_cancel_left hpayload))

/-- **The `TypeError` of a payload that cannot be hashed** names the kinds of two keys
that cannot be compared. -/
theorem unsortable_of_dumps {v : PyVal} (h : dumps v = none) :
    ∃ k l, PyKey.comparable k l = false ∧ unsortable v = ⟨.typeError,
      s!"'<' not supported between instances of '{k.typeName}' and '{l.typeName}'", []⟩ := by
  obtain ⟨⟨k, l⟩, hclash⟩ := clash_of_dumpsChars (Option.map_eq_none_iff.mp h)
  refine ⟨k, l, comparable_of_clash hclash, ?_⟩
  unfold unsortable
  rw [hclash]

/-- The keys of two dicts, the outer one sorted first: `None` is compared last. -/
example : (unsortable (.dict [(.str "b", .dict [(.int 1, .none), (.str "x", .none)]),
    (.str "a", .none), (.none, .none)])).msg
      = "'<' not supported between instances of 'NoneType' and 'str'" := by
  decide +kernel

/-- Equal canonical texts have equal hashes, and for a hash without collisions
only these have. -/
theorem contentHash_of_dumps {e e' : EventEnvelope} {c : String} (hc : dumps e'.hashed = some c)
    (h : dumps e'.hashed = dumps e.hashed) (uuid5 : Uuid5) :
    e'.contentHash uuid5 = e.contentHash uuid5 := by
  unfold contentHash
  rw [← h, hc]

theorem dumps_of_contentHash {e e' : EventEnvelope} {uuid5 : Uuid5}
    (hinj : Function.Injective uuid5) (h : e'.contentHash uuid5 = e.contentHash uuid5) :
    dumps e'.hashed = dumps e.hashed := by
  unfold contentHash at h
  cases hc' : dumps e'.hashed with
  | none =>
      cases hc : dumps e.hashed with
      | none => rfl
      | some c => rw [hc, hc'] at h; cases h
  | some c' =>
      cases hc : dumps e.hashed with
      | none => rw [hc, hc'] at h; cases h
      | some c =>
          rw [hc, hc'] at h
          exact congrArg some (hinj (Except.ok.inj h))

/-- **What arrives of an envelope with a documented payload.** -/
theorem received_documented (fresh fresh' : Uuid) {e : EventEnvelope}
    (h : e.payload.Documented) : ∃ e' c, e.received fresh fresh' = .ok e'
      ∧ dumps e'.hashed = some c ∧ (dumps e'.hashed = dumps e.hashed ↔ e.payload.Stable) := by
  obtain ⟨j, hj, hwf⟩ := PyVal.dump_wellFormed e.payload h
  obtain ⟨t, ht⟩ := Json.dumpsChars_toPy j
  have hhashed : ∃ c, dumps (hashed { e with payload := j.toPy }) = some c := by
    unfold dumps
    rw [dumpsChars_hashed, ht]
    exact ⟨_, rfl⟩
  obtain ⟨c, hc⟩ := hhashed
  refine ⟨{ e with payload := j.toPy }, c, received_eq fresh fresh' hj hwf, hc, ?_⟩
  rw [dumps_hashed_iff]
  exact dumpsChars_toPy_iff e.payload h hj

/-- **When the content hash survives the wire.**  Every envelope with a payload
of a documented kind arrives; its content hash is the one it was stored under
exactly when the payload is stable: `str` of every object in it is what pydantic
writes for it, and the keys of every dict in it can be sorted and come in the
same order as their texts. -/
theorem content_hash_iff (fresh fresh' : Uuid) {e : EventEnvelope} (h : e.payload.Documented) :
    ∃ e', e.received fresh fresh' = .ok e'
      ∧ ((∀ uuid5, e'.contentHash uuid5 = e.contentHash uuid5) ↔ e.payload.Stable)
      ∧ ∀ uuid5, Function.Injective uuid5 →
        (e'.contentHash uuid5 = e.contentHash uuid5 ↔ e.payload.Stable) := by
  obtain ⟨e', c, hreceived, hc, hstable⟩ := received_documented fresh fresh' h
  refine ⟨e', hreceived, ⟨fun hall => ?_, fun hs uuid5 => ?_⟩, fun uuid5 hinj => ?_⟩
  · exact hstable.mp (dumps_of_contentHash Function.injective_id (hall id))
  · exact contentHash_of_dumps hc (hstable.mpr hs) uuid5
  · constructor
    · intro heq
      exact hstable.mp (dumps_of_contentHash hinj heq)
    · intro hs
      exact contentHash_of_dumps hc (hstable.mpr hs) uuid5

/-- An event with the given payload. -/
def shipped (payload : PyVal) : EventEnvelope where
  event_id := Uuid.ofNat 7
  event_type := "orders.order_shipped"
  schema_version := 1
  aggregate_type := "Order"
  aggregate_id := "42"
  payload := payload
  event_type_len := by decide
  schema_version_ge := by decide
  aggregate_type_len := by decide
  aggregate_id_len := by decide

/-- A datetime, a model, and a dict with two integer keys. -/
def shippedAt : PyVal :=
  .dict [(.str "at", .other "2024-01-01 00:00:00+00:00" (some (.str "2024-01-01T00:00:00Z")))]

def shippedModel : PyVal := .other "parcels=2" (some (.obj [("parcels", .int 2)]))

def parcelWeights : PyVal := .dict [(.int 9, .int 250), (.int 10, .int 400)]

theorem documented_shippedAt : shippedAt.Documented :=
  ⟨by decide, (fun hc => nomatch hc), ⟨_, rfl, trivial⟩, trivial⟩

theorem documented_shippedModel : shippedModel.Documented :=
  ⟨_, rfl, by decide, trivial, trivial⟩

theorem documented_parcelWeights : parcelWeights.Documented :=
  ⟨by decide, (fun hc => nomatch hc), trivial, (fun hc => nomatch hc), trivial, trivial⟩

theorem content_hash_iff_at :
    ∃ e', (shipped shippedAt).received (Uuid.ofNat 0) (Uuid.ofNat 0) = .ok e'
      ∧ ((∀ uuid5, e'.contentHash uuid5 = (shipped shippedAt).contentHash uuid5)
        ↔ (shipped shippedAt).payload.Stable)
      ∧ ∀ uuid5, Function.Injective uuid5 →
        (e'.contentHash uuid5 = (shipped shippedAt).contentHash uuid5
          ↔ (shipped shippedAt).payload.Stable) :=
  content_hash_iff (Uuid.ofNat 0) (Uuid.ofNat 0) (e := shipped shippedAt) documented_shippedAt

/-- An event with the payload arrives, but with another content hash. -/
def Rehashed (payload : PyVal) : Prop :=
  ∃ e', (shipped payload).received (Uuid.ofNat 0) (Uuid.ofNat 0) = .ok e'
    ∧ ∀ uuid5, Function.Injective uuid5 →
      e'.contentHash uuid5 ≠ (shipped payload).contentHash uuid5

theorem rehashed {payload : PyVal} (hd : payload.Documented) (hs : ¬ payload.Stable) :
    Rehashed payload := by
  obtain ⟨e', -, hreceived, -, hstable⟩ :=
    received_documented (Uuid.ofNat 0) (Uuid.ofNat 0) (e := shipped payload) hd
  exact ⟨e', hreceived, fun uuid5 hinj heq => hs (hstable.mp (dumps_of_contentHash hinj heq))⟩

/-- All three are hashed anew. -/
theorem content_hash_fails :
    Rehashed shippedAt ∧ Rehashed shippedModel ∧ Rehashed parcelWeights := by
  refine ⟨rehashed documented_shippedAt ?_, rehashed documented_shippedModel ?_,
    rehashed documented_parcelWeights ?_⟩
  · intro hs
    have hiso := Json.str.inj (Option.some.inj hs.2.1)
    exact absurd hiso (by decide)
  · intro hs
    cases Option.some.inj hs
  · -- 9 comes before 10, but its text does not
    intro hs
    have hle := hs.1.2 (.int 9) List.mem_cons_self (.int 10)
      (List.mem_cons_of_mem _ List.mem_cons_self) (by decide)
    exact absurd hle (by decide)

end EventEnvelope

end Nimbus
