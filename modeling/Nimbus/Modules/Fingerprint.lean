/-
  Nimbus.Modules.Fingerprint
  ──────────────────────────
  **WHICH CLIENTS A FINGERPRINT KEEPS APART.**

  A fingerprint hashes four texts joined by "|", none of them quoted.  A client
  chooses two of them, and may write the separator into one: then another client,
  whose texts are cut elsewhere, has the same fingerprint, is counted under it,
  and is blacklisted with it.

    • `ActsAt`           — an operation that reads and writes one key;
    • `serve`            — the checks of any clients, one after another;
    • `Separated`, `SeparatedFromAll` — no request of the one shows in what the
                           other is answered;
    • `pieces`, `bars`   — the texts between the separators, and where these are;
    • `fingerprints_iff` — **two clients are separated unless the same texts lie
                           in different components; a client is separated from
                           all others exactly when it has no separator.**
-/
import Nimbus.Modules.SlidingWindow

namespace Nimbus.Abuse

open Lib

/-! ## §1. What a check reads and writes. -/

/-- The keys of a fingerprint hold the same. -/
structure AgreeAt (fingerprint : String) (r r' : RateStore) : Prop where
  zsets : r.zsets.entry ("rl:fp:" ++ fingerprint) = r'.zsets.entry ("rl:fp:" ++ fingerprint)
  strings : r.strings.entry ("bl:fp:" ++ fingerprint) = r'.strings.entry ("bl:fp:" ++ fingerprint)

/-- An operation on the sorted sets that concerns one key alone. -/
structure ActsAt (key : String) (f : Expiring String SortedSet → Expiring String SortedSet) :
    Prop where
  here : ∀ {z z'}, z.entry key = z'.entry key → (f z).entry key = (f z').entry key
  elsewhere : ∀ z {k}, k ≠ key → (f z).entry k = z.entry k

theorem ActsAt.comp {key : String} {f g : Expiring String SortedSet → Expiring String SortedSet}
    (hg : ActsAt key g) (hf : ActsAt key f) : ActsAt key fun z => g (f z) :=
  ⟨fun h => hg.here (hf.here h), fun z _ hk => (hg.elsewhere (f z) hk).trans (hf.elsewhere z hk)⟩

theorem zset_congr {z z' : Expiring String SortedSet} {key : String}
    (h : z.entry key = z'.entry key) (clock : Int) : zset z clock key = zset z' clock key := by
  unfold zset
  rw [Expiring.get?_congr h]

theorem deadlineOf_congr {z z' : Expiring String SortedSet} {key : String}
    (h : z.entry key = z'.entry key) (clock : Int) :
    deadlineOf z clock key = deadlineOf z' clock key := by
  unfold deadlineOf
  rw [h]

theorem actsAt_zremrangebyscore (clock : Int) (key : String) (max : Int) :
    ActsAt key (zremrangebyscore clock key max) := by
  constructor
  · intro z z' h
    unfold zremrangebyscore
    rw [zset_congr h, deadlineOf_congr h]
    split
    next => rw [Expiring.entry_erase_self, Expiring.entry_erase_self]
    next => rw [Expiring.entry_put_self, Expiring.entry_put_self]
  · intro z k hk
    unfold zremrangebyscore
    split
    next => exact Expiring.entry_erase_of_ne z hk
    next => exact Expiring.entry_put_of_ne z _ _ hk

theorem actsAt_zadd (clock : Int) (key : String) (score : Int) (member : String) :
    ActsAt key (zadd clock key score member) := by
  constructor
  · intro z z' h
    unfold zadd
    rw [zset_congr h, deadlineOf_congr h, Expiring.entry_put_self, Expiring.entry_put_self]
  · intro z k hk
    exact Expiring.entry_put_of_ne z _ _ hk

theorem actsAt_expire (clock : Int) (key : String) (ttl : Int) :
    ActsAt key (expire clock key ttl) := by
  constructor
  · intro z z' h
    unfold expire
    rw [Expiring.get?_congr h]
    split
    next => rw [Expiring.entry_put_self, Expiring.entry_put_self]
    next => exact h
  · intro z k hk
    unfold expire
    split
    next => exact Expiring.entry_put_of_ne z _ _ hk
    next => rfl

/-- The three commands of a check that is not blacklisted. -/
theorem actsAt_commands (L : Lua) (clock : Int) (key : String) (args : ScriptArgs) :
    ActsAt key fun z => expire clock key ((args.window + 1) * L.perSecond)
      (zadd clock key (L.tonumber args.now) (memberOf L args)
        (zremrangebyscore clock key (L.tonumber args.now - args.window * L.perSecond) z)) :=
  (actsAt_expire clock key _).comp
    ((actsAt_zadd clock key _ _).comp (actsAt_zremrangebyscore clock key _))

/-- **The script acts at the two keys of its fingerprint.** -/
theorem slidingWindow_agree (L : Lua) (clock : Int) {fingerprint : String} (args : ScriptArgs)
    {r r' : RateStore} (h : AgreeAt fingerprint r r') :
    (slidingWindow L clock (rateKeys fingerprint) args r).1
        = (slidingWindow L clock (rateKeys fingerprint) args r').1
      ∧ AgreeAt fingerprint (slidingWindow L clock (rateKeys fingerprint) args r).2
          (slidingWindow L clock (rateKeys fingerprint) args r').2 := by
  obtain ⟨hz, hs⟩ := h
  have hlisted : (r.strings.get? clock ("bl:fp:" ++ fingerprint)).isSome
      = (r'.strings.get? clock ("bl:fp:" ++ fingerprint)).isSome := by
    rw [Expiring.get?_congr hs]
  by_cases hbl : (r.strings.get? clock ("bl:fp:" ++ fingerprint)).isSome = true
  · -- blacklisted in both
    rw [slidingWindow_listed L hbl, slidingWindow_listed L (hlisted ▸ hbl)]
    exact ⟨rfl, hz, hs⟩
  · have hbl' := eq_false_of_ne_true hbl
    -- the commands leave the keys alike, so the counts are the same
    have hentry := (actsAt_commands L clock ("rl:fp:" ++ fingerprint) args).here hz
    have hcount : zcard clock ("rl:fp:" ++ fingerprint) _
        = zcard clock ("rl:fp:" ++ fingerprint) _ :=
      congrArg (fun entries : SortedSet => (entries.length : Int)) (zset_congr hentry clock)
    rw [slidingWindow_unlisted L hbl' rfl rfl, slidingWindow_unlisted L (hlisted ▸ hbl') rfl rfl,
      hcount]
    split_ifs
    · exact ⟨rfl, hentry, by rw [Expiring.entry_put_self, Expiring.entry_put_self]⟩
    · exact ⟨rfl, hentry, hs⟩
    · exact ⟨rfl, hentry, hs⟩

/-- So it leaves the keys of another one alone. -/
theorem slidingWindow_other (L : Lua) (clock : Int) {fingerprint other : String}
    (hne : other ≠ fingerprint) (args : ScriptArgs) (r : RateStore) :
    AgreeAt other (slidingWindow L clock (rateKeys fingerprint) args r).2 r := by
  have hrl : "rl:fp:" ++ other ≠ "rl:fp:" ++ fingerprint :=
    fun hc => hne ((String.append_right_inj _).mp hc)
  have hbl : "bl:fp:" ++ other ≠ "bl:fp:" ++ fingerprint :=
    fun hc => hne ((String.append_right_inj _).mp hc)
  by_cases hlisted : (r.strings.get? clock ("bl:fp:" ++ fingerprint)).isSome = true
  · rw [slidingWindow_listed L hlisted]
    exact ⟨rfl, rfl⟩
  · have hentry :=
      (actsAt_commands L clock ("rl:fp:" ++ fingerprint) args).elsewhere r.zsets hrl
    rw [slidingWindow_unlisted L (eq_false_of_ne_true hlisted) rfl rfl]
    split_ifs
    · exact ⟨hentry, Expiring.entry_put_of_ne r.strings _ _ hbl⟩
    · exact ⟨hentry, rfl⟩
    · exact ⟨hentry, rfl⟩

/-! ## §2. The checks of several clients. -/

/-- What `compute_fingerprint` is given. -/
structure Client where
  client_ip : String
  user_agent : String
  accept_language : String
  extra : String
deriving DecidableEq

/-- The fingerprint of a client. -/
def Client.fingerprint (sha256 : String → String) (c : Client) : String :=
  computeFingerprint sha256 c.client_ip c.user_agent c.accept_language c.extra

/-- The checks of any clients' requests, one after another: what each of them is
answered. -/
def serve (L : Lua) (s : Settings) (sha256 : String → String) :
    RateStore → List (Client × Request) → List (Client × (Int × Int))
  | _, [] => []
  | r, (c, q) :: rest =>
      let out := slidingWindow L q.clock (rateKeys (c.fingerprint sha256))
        (scriptArgs s q.now q.rand) r
      (c, out.1) :: serve L s sha256 out.2 rest

theorem serve_cons (L : Lua) (s : Settings) (sha256 : String → String) (r : RateStore)
    (c : Client) (q : Request) (rest : List (Client × Request)) :
    serve L s sha256 r ((c, q) :: rest)
      = (c, (slidingWindow L q.clock (rateKeys (c.fingerprint sha256))
            (scriptArgs s q.now q.rand) r).1)
        :: serve L s sha256 (slidingWindow L q.clock (rateKeys (c.fingerprint sha256))
            (scriptArgs s q.now q.rand) r).2 rest := rfl

/-- What `q` is answered is what it would be answered alone. -/
def Alone (sha256 : String → String) (q : Client) (requests : List (Client × Request)) : Prop :=
  ∀ L s r, (serve L s sha256 r requests).filter (fun x => x.1 = q)
    = serve L s sha256 r (requests.filter fun x => x.1 = q)

/-- **Two clients are kept apart**: they have one fingerprint only if they are
one client, and in requests of the two, `q` is answered as if it were alone. -/
def Separated (sha256 : String → String) (p q : Client) : Prop :=
  (p.fingerprint sha256 = q.fingerprint sha256 → p = q)
  ∧ ∀ requests, (∀ x ∈ requests, x.1 = p ∨ x.1 = q) → Alone sha256 q requests

/-- A client is kept apart from all others. -/
def SeparatedFromAll (sha256 : String → String) (q : Client) : Prop :=
  (∀ p : Client, p.fingerprint sha256 = q.fingerprint sha256 → p = q)
  ∧ ∀ requests, Alone sha256 q requests

/-- **Another fingerprint, another count**: where nobody else has the fingerprint
of `q`, nobody else's requests show in its answers. -/
theorem alone_of_fingerprints {sha256 : String → String} {q : Client}
    {requests : List (Client × Request)}
    (h : ∀ x ∈ requests, x.1.fingerprint sha256 = q.fingerprint sha256 → x.1 = q) :
    Alone sha256 q requests := by
  intro L s r
  -- the two runs need to agree on the keys of `q` only
  suffices hagree : ∀ r r', AgreeAt (q.fingerprint sha256) r r' →
      (serve L s sha256 r requests).filter (fun x => x.1 = q)
        = serve L s sha256 r' (requests.filter fun x => x.1 = q) from
    hagree r r ⟨rfl, rfl⟩
  induction requests with
  | nil => exact fun _ _ _ => rfl
  | cons x rest ih =>
      intro r r' hr
      obtain ⟨c, req⟩ := x
      have ih' := ih fun y hy => h y (List.mem_cons_of_mem _ hy)
      rw [serve_cons]
      by_cases hc : c = q
      · subst hc
        obtain ⟨hanswer, hnext⟩ :=
          slidingWindow_agree L req.clock (scriptArgs s req.now req.rand) hr
        rw [List.filter_cons_of_pos (by simp), List.filter_cons_of_pos (by simp),
          serve_cons, hanswer, ih' _ _ hnext]
      · have hne : q.fingerprint sha256 ≠ c.fingerprint sha256 :=
          fun heq => hc (h (c, req) List.mem_cons_self heq.symm)
        have hother := slidingWindow_other L req.clock hne (scriptArgs s req.now req.rand) r
        rw [List.filter_cons_of_neg (by simpa using hc), List.filter_cons_of_neg (by simpa using hc)]
        exact ih' _ _ ⟨hother.zsets.trans hr.zsets, hother.strings.trans hr.strings⟩

theorem separated_iff_fingerprint (sha256 : String → String) (p q : Client) :
    Separated sha256 p q ↔ (p.fingerprint sha256 = q.fingerprint sha256 → p = q) := by
  constructor
  · exact And.left
  · refine fun h => ⟨h, fun requests hreq => alone_of_fingerprints fun x hx heq => ?_⟩
    rcases hreq x hx with hp | hq
    · exact hp.trans (h (hp ▸ heq))
    · exact hq

theorem separatedFromAll_iff_fingerprint (sha256 : String → String) (q : Client) :
    SeparatedFromAll sha256 q
      ↔ ∀ p : Client, p.fingerprint sha256 = q.fingerprint sha256 → p = q := by
  constructor
  · exact And.left
  · exact fun h => ⟨h, fun requests => alone_of_fingerprints fun x _ heq => h x.1 heq⟩

/-! ## §3. Where the separators are. -/

/-- The separator. -/
def bar : Char := '|'

/-- The four texts. -/
def Client.texts (c : Client) : List (List Char) :=
  [c.client_ip.toList, c.user_agent.toList, c.accept_language.toList, c.extra.toList]

/-- How many separators each of the texts has. -/
def Client.bars (c : Client) : List Nat := c.texts.map fun text => text.count bar

/-- The texts between the separators, those of the client among them. -/
def Client.pieces (c : Client) : List (List Char) := c.texts.flatMap fun text => text.splitOn bar

/-- A client that has no separator in any of its texts. -/
def Client.Plain (c : Client) : Prop := ∀ text ∈ c.texts, bar ∉ text

instance (c : Client) : Decidable c.Plain :=
  inferInstanceAs (Decidable (∀ text ∈ c.texts, bar ∉ text))

/-- What is hashed. -/
def Client.payload (c : Client) : String :=
  c.client_ip ++ "|" ++ c.user_agent ++ "|" ++ c.accept_language ++ "|" ++ c.extra

theorem length_splitOn (a : Char) (text : List Char) :
    (text.splitOn a).length = text.count a + 1 := by
  induction text with
  | nil => rfl
  | cons x rest ih =>
      rw [List.splitOn_cons_eq_if_modifyHead, List.count_cons]
      split
      next => rw [List.length_cons, ih]
      next => rw [List.length_modifyHead, ih, Nat.add_zero]

/-- A text is what lies between its separators. -/
theorem splitOn_inj {a : Char} {text text' : List Char} (h : text.splitOn a = text'.splitOn a) :
    text = text' := by
  have hjoin : [a].intercalate (text.splitOn a) = text := List.intercalate_splitOn a
  rw [← hjoin, h, List.intercalate_splitOn]

theorem payload_toList (c : Client) :
    c.payload.toList = c.client_ip.toList ++ bar :: (c.user_agent.toList
      ++ bar :: (c.accept_language.toList ++ bar :: c.extra.toList)) := by
  unfold Client.payload
  simp only [String.toList_append, List.append_assoc]
  rfl

/-- The pieces are those of the text that is hashed. -/
theorem splitOn_payload (c : Client) : c.payload.toList.splitOn bar = c.pieces := by
  rw [payload_toList, List.splitOn_append_cons_self, List.splitOn_append_cons_self,
    List.splitOn_append_cons_self]
  simp [Client.pieces, Client.texts]

theorem payload_eq_iff (p q : Client) : p.payload = q.payload ↔ p.pieces = q.pieces := by
  rw [← splitOn_payload, ← splitOn_payload, ← String.toList_inj]
  exact ⟨fun h => congrArg _ h, splitOn_inj⟩

/-- **The pieces and the places of the separators make the client.** -/
theorem eq_of_pieces {p q : Client} (hpieces : p.pieces = q.pieces) (hbars : p.bars = q.bars) :
    p = q := by
  obtain ⟨ip, ua, al, extra⟩ := p
  obtain ⟨ip', ua', al', extra'⟩ := q
  simp only [Client.bars, Client.texts, List.map_cons, List.map_nil, List.cons.injEq,
    and_true] at hbars
  simp only [Client.pieces, Client.texts, List.flatMap_cons, List.flatMap_nil,
    List.append_nil] at hpieces
  obtain ⟨hip, hua, hal, -⟩ := hbars
  obtain ⟨hip', hpieces⟩ := List.append_inj hpieces (by rw [length_splitOn, length_splitOn, hip])
  obtain ⟨hua', hpieces⟩ := List.append_inj hpieces (by rw [length_splitOn, length_splitOn, hua])
  obtain ⟨hal', hextra'⟩ := List.append_inj hpieces (by rw [length_splitOn, length_splitOn, hal])
  rw [String.toList_inj.mp (splitOn_inj hip'), String.toList_inj.mp (splitOn_inj hua'),
    String.toList_inj.mp (splitOn_inj hal'), String.toList_inj.mp (splitOn_inj hextra')]

/-! ## §4. Who shares a fingerprint. -/

/-- A text with a separator, cut there. -/
theorem cut_of_bar {text : String} (h : bar ∈ text.toList) :
    ∃ before after, text = before ++ "|" ++ after := by
  obtain ⟨l, l', hl⟩ := List.append_of_mem h
  refine ⟨String.ofList l, String.ofList l', String.toList_inj.mp ?_⟩
  simp only [String.toList_append, String.toList_ofList, List.append_assoc]
  exact hl

theorem length_cut (before after : String) :
    (before ++ "|" ++ after).length = before.length + 1 + after.length := by
  rw [String.length_append, String.length_append]
  rfl

/-- What comes before a separator is a shorter text. -/
theorem cut_ne (before after : String) : before ≠ before ++ "|" ++ after := by
  intro hc
  have hlen := congrArg String.length hc
  rw [length_cut] at hlen
  omega

/-- And what comes after it. -/
theorem cut_ne_after (before after : String) : after ≠ before ++ "|" ++ after := by
  intro hc
  have hlen := congrArg String.length hc
  rw [length_cut] at hlen
  omega

/-- **A client with a separator shares its text** with one that is cut there. -/
theorem exists_other {q : Client} (h : ¬ q.Plain) : ∃ p : Client, p.payload = q.payload ∧ p ≠ q := by
  obtain ⟨ip, ua, al, extra⟩ := q
  unfold Client.Plain Client.texts at h
  simp only [List.mem_cons, List.not_mem_nil, or_false, forall_eq_or_imp, forall_eq,
    not_and_or, not_not] at h
  unfold Client.payload
  rcases h with h | h | h | h
  · -- the text is cut at its separator, and a neighbour takes one of the pieces
    obtain ⟨before, after, rfl⟩ := cut_of_bar h
    refine ⟨⟨before, after ++ "|" ++ ua, al, extra⟩, ?_, fun hc => ?_⟩
    · simp only [String.append_assoc]
    · exact cut_ne before after (congrArg Client.client_ip hc)
  · obtain ⟨before, after, rfl⟩ := cut_of_bar h
    refine ⟨⟨ip ++ "|" ++ before, after, al, extra⟩, ?_, fun hc => ?_⟩
    · simp only [String.append_assoc]
    · exact cut_ne_after before after (congrArg Client.user_agent hc)
  · obtain ⟨before, after, rfl⟩ := cut_of_bar h
    refine ⟨⟨ip, ua ++ "|" ++ before, after, extra⟩, ?_, fun hc => ?_⟩
    · simp only [String.append_assoc]
    · exact cut_ne_after before after (congrArg Client.accept_language hc)
  · obtain ⟨before, after, rfl⟩ := cut_of_bar h
    refine ⟨⟨ip, ua, al ++ "|" ++ before, after⟩, ?_, fun hc => ?_⟩
    · simp only [String.append_assoc]
    · exact cut_ne_after before after (congrArg Client.extra hc)

/-- A client without separators has four pieces, and so has whoever shares its
text. -/
theorem Client.Plain.bars_eq {p q : Client} (hq : q.Plain) (h : p.pieces = q.pieces) :
    p.bars = q.bars := by
  -- each separator makes one piece more
  have hlength : ∀ c : Client, c.pieces.length = c.bars.sum + 4 := by
    intro c
    simp only [Client.pieces, Client.bars, Client.texts, List.flatMap_cons, List.flatMap_nil,
      List.append_nil, List.length_append, length_splitOn, List.map_cons, List.map_nil,
      List.sum_cons, List.sum_nil]
    omega
  have hzero : q.bars = [0, 0, 0, 0] := by
    have hnone : ∀ text ∈ q.texts, text.count bar = 0 :=
      fun text htext => List.count_eq_zero.mpr (hq text htext)
    simpa [Client.bars, Client.texts] using hnone
  -- as many pieces, so as many separators: none
  have hsum : p.bars.sum = 0 := by
    have hlen := congrArg List.length h
    rw [hlength, hlength, hzero] at hlen
    simpa using hlen
  rw [hzero]
  simp only [Client.bars, Client.texts, List.map_cons, List.map_nil, List.sum_cons,
    List.sum_nil] at hsum ⊢
  simp only [List.cons.injEq, and_true]
  omega

/-- **Which clients fingerprints separate**, where the hash is free of collisions:
two of them are separated exactly when their separators lie in the same
components or the texts between them differ, and one of them is separated from
all others exactly when it has no separator. -/
theorem fingerprints_iff {sha256 : String → String} (h : Function.Injective sha256) :
    (∀ p q : Client, Separated sha256 p q ↔ p.bars = q.bars ∨ p.pieces ≠ q.pieces)
    ∧ ∀ q : Client, SeparatedFromAll sha256 q ↔ q.Plain := by
  -- a hash that collides nowhere tells the same as what is hashed
  have hsame : ∀ p q : Client, p.fingerprint sha256 = q.fingerprint sha256 ↔ p.pieces = q.pieces := by
    intro p q
    rw [← payload_eq_iff]
    exact ⟨fun heq => h heq, fun heq => congrArg sha256 heq⟩
  refine ⟨fun p q => ?_, fun q => ?_⟩
  · rw [separated_iff_fingerprint, hsame]
    constructor
    · intro hsep
      by_cases hpieces : p.pieces = q.pieces
      · exact Or.inl (congrArg Client.bars (hsep hpieces))
      · exact Or.inr hpieces
    · rintro (hbars | hpieces) heq
      · exact eq_of_pieces heq hbars
      · exact absurd heq hpieces
  · rw [separatedFromAll_iff_fingerprint]
    constructor
    · intro hsep
      by_contra hplain
      obtain ⟨p, hpayload, hne⟩ := exists_other hplain
      exact hne (hsep p (congrArg sha256 hpayload))
    · intro hplain p heq
      have hpieces := (hsame p q).mp heq
      exact eq_of_pieces hpieces (hplain.bars_eq hpieces)

/-- Two clients that differ in where they say "en". -/
def englishAgent : Client := ⟨"1.2.3.4", "curl/8", "en", ""⟩

def englishRealm : Client := ⟨"1.2.3.4", "curl/8", "", "en"⟩

/-- SHA-256 of their texts; any other text comes after a question mark. -/
def digestOf (text : String) : String :=
  if text = "1.2.3.4|curl/8|en|" then
    "84bfd4eb1561def2ab076e35f6e1ce394b2b0e4350303537e91ebd2f92bd37f2"
  else if text = "1.2.3.4|curl/8||en" then
    "4bb7641b7427cd34a923423d89516f4461959ef6107f67433d7ed9f9aaaeed61"
  else "?" ++ text

theorem digestOf_injective : Function.Injective digestOf := by
  have hother : ∀ {digest text : String}, digest.toList.head? ≠ some '?' → digest ≠ "?" ++ text := by
    intro digest text hhead hc
    rw [hc, String.toList_append] at hhead
    exact hhead rfl
  intro a b h
  unfold digestOf at h
  split_ifs at h with ha hb hb' ha' hb hb' hb hb'
  · rw [ha, hb]
  · exact absurd h (by decide)
  · exact absurd h (hother (by decide))
  · exact absurd h (by decide)
  · rw [ha', hb']
  · exact absurd h (hother (by decide))
  · exact absurd h.symm (hother (by decide))
  · exact absurd h.symm (hother (by decide))
  · exact (String.append_right_inj _).mp h

theorem fingerprints_iff_plain :
    englishAgent.fingerprint digestOf
        = "84bfd4eb1561def2ab076e35f6e1ce394b2b0e4350303537e91ebd2f92bd37f2"
      ∧ Separated digestOf englishAgent englishRealm
      ∧ SeparatedFromAll digestOf englishAgent :=
  ⟨by decide +kernel,
    ((fingerprints_iff digestOf_injective).1 englishAgent englishRealm).mpr (Or.inl (by decide)),
    ((fingerprints_iff digestOf_injective).2 englishAgent).mpr (by decide)⟩

/-- Two clients of one address: the first writes the separator into its user
agent, the other into its language. -/
def cutInAgent : Client := ⟨"1.2.3.4", "a|b", "", ""⟩

def cutInLanguage : Client := ⟨"1.2.3.4", "a", "b|", ""⟩

/-- No hash separates them. -/
theorem fingerprints_collide :
    ¬ ∃ sha256 : String → String, Separated sha256 cutInAgent cutInLanguage := by
  rintro ⟨sha256, h⟩
  have hpayload : cutInAgent.payload = cutInLanguage.payload := by decide
  exact absurd (h.1 (congrArg sha256 hpayload)) (by decide)

end Nimbus.Abuse
