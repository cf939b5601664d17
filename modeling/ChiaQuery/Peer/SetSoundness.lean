import ChiaQuery.Peer.SetRead

/-! When a corroborated set is backed by the peers that corroborated it. The sources compare
fingerprints, which keep one claim for each coin, while the items returned are the asked
peer's own list; the two agree when that list speaks once about every coin it is asked for.
-/

namespace ChiaQuery

open ChiaQuery.Library

section Soundness

variable {α : Type*} [SetMember α]

/-- Every wanted record of the list is the only wanted record of its coin from there on, and
the last later record of its coin, if there is one, repeats its claim.
-/
def speaksOnce (projection : SetProjection) : List α → Bool
  | [] => true
  | item :: later =>
      (wanted projection item
        → (∀ other ∈ later, wanted projection other → identity other ≠ identity item)
          ∧ ∀ claim ∈ (fingerprint later)[identity item]?, claim = chainClaim item)
      && speaksOnce projection later

theorem fingerprint_cons (item : α) (later : List α) (coin : String)
    : (fingerprint (item :: later))[coin]?
      = (fingerprint later)[coin]?.or
          (if identity item = coin then some (chainClaim item) else none) :=
  getElem?_collectBy_cons _ _ _ _ _

theorem fingerprint_isSome_of_mem {items : List α} {item : α} (member : item ∈ items)
    : (fingerprint items)[identity item]?.isSome :=
  collectBy_isSome_iff.mpr ⟨item, member, rfl⟩

/-- A list speaks once about what is wanted of it exactly when the wanted records have
different identities and their claims are the ones its fingerprint records. Induction on the
list: the fingerprint of a longer list only differs where the later records are silent.
-/
theorem speaksOnce_iff {projection : SetProjection} {items : List α}
    : speaksOnce projection items = true
      ↔ ((project items projection).map identity).Nodup
        ∧ ∀ item ∈ project items projection,
            (fingerprint items)[identity item]? = some (chainClaim item) := by
  induction items with
  | nil => simp [speaksOnce, project]
  | cons item later ih =>
      have hlater
          : (∀ other ∈ project later projection,
              (fingerprint (item :: later))[identity other]? = some (chainClaim other))
            ↔ ∀ other ∈ project later projection,
                (fingerprint later)[identity other]? = some (chainClaim other) := by
        refine forall₂_congr (fun other member => ?_)
        obtain ⟨claim, hclaim⟩ := Option.isSome_iff_exists.mp
          (fingerprint_isSome_of_mem (List.mem_of_mem_filter member))
        rw [fingerprint_cons, hclaim, Option.some_or]
      have hfirst
          : (fingerprint (item :: later))[identity item]? = some (chainClaim item)
            ↔ ∀ claim ∈ (fingerprint later)[identity item]?, claim = chainClaim item := by
        rw [fingerprint_cons]
        cases (fingerprint later)[identity item]? with
        | none => simp
        | some claim => simp
      simp only [speaksOnce, Bool.and_eq_true, decide_eq_true_eq, ih]
      cases hwanted : wanted projection item with
      | false =>
          simp only [Bool.false_eq_true, false_implies, true_and, project, List.filter_cons,
            hwanted, if_false]
          exact and_congr_right (fun _ => hlater.symm)
      | true =>
          simp only [true_implies, project, List.filter_cons, hwanted, if_true, List.map_cons,
            List.nodup_cons, List.forall_mem_cons, hfirst]
          have hfresh
              : (∀ other ∈ later, wanted projection other → identity other ≠ identity item)
                ↔ identity item ∉ (later.filter (wanted projection)).map identity := by
            simp [List.mem_map, List.mem_filter]
          rw [hfresh]
          constructor
          · rintro ⟨⟨fresh, last⟩, distinct, claims⟩
            exact ⟨⟨fresh, distinct⟩, last, hlater.mpr claims⟩
          · rintro ⟨⟨fresh, distinct⟩, last, claims⟩
            exact ⟨⟨fresh, last⟩, distinct, hlater.mp claims⟩

/-- The peers behind one item: enough of them, on different hosts other than the asked one,
each recording the item's claim for its coin.
-/
structure IsVoiced (views : PoolViews) (asked : SocketAddr)
    (readCorroborator : Peer → Except ChiaQueryError (HeightedSet α)) (height : UInt32)
    (item : α) (voices : List PeerEntry)
    : Prop where
  enough : corroborationFloor ≤ voices.length
  hosts_distinct : (voices.map (fun voice => voice.address.ip)).Nodup
  drawn : ∀ voice ∈ voices, voice ∈ PeerPool.corroborators views.atSelection asked
  not_asked : ∀ voice ∈ voices, voice.address.ip ≠ asked.ip
  recorded
    : ∀ voice ∈ voices,
        ∃ set,
          readCorroborator voice.peer = .ok set
          ∧ (PeerBackend.claimsAt set height)[identity item]? = some (chainClaim item)

/-- A list of items names no coin twice and has enough peers behind every item. -/
structure IsSound (views : PoolViews) (asked : SocketAddr)
    (readCorroborator : Peer → Except ChiaQueryError (HeightedSet α)) (height : UInt32)
    (items : List α)
    : Prop where
  distinct : (items.map identity).Nodup
  voiced
    : ∀ item ∈ items,
        ∃ voices, IsVoiced views asked readCorroborator height item voices

namespace PeerBackend

omit [SetMember α] in
/-- The answers of a round come from the corroborators of the view they were drawn from. -/
theorem mem_answered_askCorroborators {views : PoolViews} {asked : SocketAddr}
    {read : Peer → Except ChiaQueryError (HeightedSet α)} {source : SocketAddr}
    {set : HeightedSet α}
    : (source, set) ∈ (askCorroborators views asked read).answered
      ↔ ∃ voice ∈ PeerPool.corroborators views.atSelection asked,
          voice.address = source ∧ read voice.peer = .ok set := by
  rw [Answers.mem_answered]
  simp only [askCorroborators, PeerPool.selectCorroboratingPeers, List.map_map, List.mem_map,
    Function.comp_apply, Prod.mk.injEq]

omit [SetMember α] in
/-- As many sources answered as there are corroborators whose request succeeded. -/
theorem length_answered_askCorroborators (views : PoolViews) (asked : SocketAddr)
    (read : Peer → Except ChiaQueryError (HeightedSet α))
    : (askCorroborators views asked read).answered.length
      = ((PeerPool.corroborators views.atSelection asked).filter
          (fun voice => (read voice.peer).isOk)).length := by
  simp only [askCorroborators, PeerPool.selectCorroboratingPeers, Answers.answered]
  induction PeerPool.corroborators views.atSelection asked with
  | nil => rfl
  | cons voice rest ih =>
      simp only [List.map_cons, List.filterMap_cons, List.filter_cons]
      cases read voice.peer with
      | error failure => simpa [Except.isOk, Except.toBool] using ih
      | ok set => simpa [Except.isOk, Except.toBool] using ih

/-- A corroborated set is sound exactly when the asked peer's answer, held to the height of
the result, speaks once about every record the caller wants.
-/
theorem corroborated_sound_iff {views : PoolViews}
    {readAsked readCorroborator : Peer → Except ChiaQueryError (HeightedSet α)}
    {projection : SetProjection} {peer : Peer} {asked : SocketAddr} {first : HeightedSet α}
    {items : List α} {height : UInt32} (hpick : pick views = .ok (peer, asked))
    (hread : readAsked peer = .ok first)
    (hresult
      : (readSetCorroborated views readAsked readCorroborator projection).result
        = .ok (.corroborated items height))
    : IsSound views asked readCorroborator height items
      ↔ speaksOnce projection (normaliseAt first.items height) = true := by
  rw [readSetCorroborated_of_answer hpick hread] at hresult
  obtain ⟨rfl, hsame, hfloor, -⟩ := corroborated_inv hresult
  have hclaims {voice : PeerEntry} {set : HeightedSet α}
      (hdrawn : voice ∈ PeerPool.corroborators views.atSelection asked)
      (hset : readCorroborator voice.peer = .ok set)
      : claimsAt set height = claimsAt first height :=
    hsame (voice.address, set)
      (mem_answered_askCorroborators.mpr ⟨voice, hdrawn, rfl, hset⟩)
  rw [speaksOnce_iff]
  constructor
  · intro hsound
    refine ⟨hsound.distinct, fun item member => ?_⟩
    obtain ⟨voices, hvoices⟩ := hsound.voiced item member
    obtain ⟨voice, hvoice⟩ : ∃ voice, voice ∈ voices :=
      List.exists_mem_of_length_pos (Nat.lt_of_lt_of_le (by decide) hvoices.enough)
    obtain ⟨set, hset, hclaim⟩ := hvoices.recorded voice hvoice
    rw [hclaims (hvoices.drawn voice hvoice) hset] at hclaim
    exact hclaim
  · intro sound
    obtain ⟨hdistinct, hrecorded⟩ := sound
    refine ⟨hdistinct, fun item member => ?_⟩
    let voices := (PeerPool.corroborators views.atSelection asked).filter
      (fun voice => (readCorroborator voice.peer).isOk)
    refine ⟨voices, ?_, ?_, ?_, ?_, ?_⟩
    · calc
        corroborationFloor
          ≤ agreeing first (askCorroborators views asked readCorroborator).answered height :=
            hfloor
        _ ≤ (askCorroborators views asked readCorroborator).answered.length :=
            List.countP_le_length
        _ = voices.length := length_answered_askCorroborators views asked readCorroborator
    · exact (PeerPool.corroborators_hosts_nodup views.atSelection asked).sublist
        (List.filter_sublist.map _)
    · exact fun voice hvoice => List.mem_of_mem_filter hvoice
    · intro voice hvoice
      exact (PeerPool.mem_corroborators (List.mem_of_mem_filter hvoice)).2.1
    · intro voice hvoice
      obtain ⟨hdrawn, hok⟩ := List.mem_filter.mp hvoice
      cases hset : readCorroborator voice.peer with
      | error failure => simp [hset, Except.isOk, Except.toBool] at hok
      | ok set =>
          refine ⟨set, rfl, ?_⟩
          rw [hclaims hdrawn hset]
          exact hrecorded item member

/-- The asked peer lists one coin before and after its spend. -/
def sampleMoving : HeightedSet CoinRecord where
  items := [sampleRecord 1 50 none, sampleRecord 1 50 (some 60)]
  asOfHeight := 100

/-- Every corroborator lists that coin as spent. -/
def sampleSettled : HeightedSet CoinRecord where
  items := [sampleRecord 1 50 (some 60)]
  asOfHeight := 100

/-- The asked peer lists several coins, one of which has been spent since the height of the result.
-/
def sampleSeveral : HeightedSet CoinRecord where
  items := [sampleRecord 1 50 (some 60), sampleRecord 2 70 none, sampleRecord 3 80 (some 99)]
  asOfHeight := 100

/-- The corroborators list them in another order, and know of two further changes. -/
def sampleSeveralLater : HeightedSet CoinRecord where
  items :=
    [sampleRecord 4 102 none, sampleRecord 3 80 (some 99), sampleRecord 1 50 (some 60),
      sampleRecord 2 70 (some 101)]
  asOfHeight := 103

theorem corroborated_sound_iff_sample
    : IsSound (.still samplePool) (sampleEntry 1).address (fun _ => .ok sampleSeveralLater) 98
          [sampleRecord 1 50 (some 60), sampleRecord 2 70 none, sampleRecord 3 80 none]
      ↔ speaksOnce { includeSpent := true } (normaliseAt sampleSeveral.items 98) = true := by
  have hresult
      : (readSetCorroborated (.still samplePool) (fun _ => .ok sampleSeveral)
            (fun _ => .ok sampleSeveralLater) { includeSpent := true }).result
        = .ok
            (.corroborated
              [sampleRecord 1 50 (some 60), sampleRecord 2 70 none, sampleRecord 3 80 none]
              98) := by
    rfl
  exact corroborated_sound_iff rfl rfl hresult

/-- Three peers that all report a coin spent are made to corroborate it as unspent. -/
theorem corroborated_unsound
    : ¬ ∀ (views : PoolViews)
        (readAsked readCorroborator : Peer → Except ChiaQueryError (HeightedSet CoinRecord))
        (projection : SetProjection) (peer : Peer) (asked : SocketAddr)
        (first : HeightedSet CoinRecord) (items : List CoinRecord) (height : UInt32),
        pick views = .ok (peer, asked)
        → readAsked peer = .ok first
        → (readSetCorroborated views readAsked readCorroborator projection).result
            = .ok (.corroborated items height)
        → IsSound views asked readCorroborator height items := by
  intro claim
  have hresult
      : (readSetCorroborated (.still samplePool) (fun _ => .ok sampleMoving)
            (fun _ => .ok sampleSettled) {}).result
        = .ok (.corroborated [sampleRecord 1 50 none] 98) :=
    rfl
  have hsound := claim _ _ _ _ _ _ _ _ _ rfl rfl hresult
  obtain ⟨voices, hvoices⟩ := hsound.voiced (sampleRecord 1 50 none) (by simp)
  obtain ⟨voice, hvoice⟩ : ∃ voice, voice ∈ voices :=
    List.exists_mem_of_length_pos (Nat.lt_of_lt_of_le (by decide) hvoices.enough)
  obtain ⟨set, hset, hclaim⟩ := hvoices.recorded voice hvoice
  cases hset
  exact absurd hclaim (by decide)

end PeerBackend

end Soundness

end ChiaQuery
