import DesignToWeb.Proofs.Service.Exporting

/-!
# What is downloaded of the addresses given

The addresses of all batches are collected before the first download.  If all batches
are answered, or a rate limit puts an end to them, every node is downloaded from the
last address that was given for it.  A failure of the service drops the addresses,
those of the batches before it included.
-/

namespace DesignToWeb.Service

variable {settings : Settings} {call : RenderCall} {before after : Session}
  {images : List (String × String)}

/-- Whether a node is got from an address, and whatever comes is returned and stored. -/
def IsGot (settings : Settings) (call : RenderCall) (xs : List Exchange)
    (images : List (String × String)) (after : Session) (nodeId : String) (url : Json) : Prop :=
  ∃ reply, (downloadRequest settings url, reply) ∈ xs ∧ ∀ data, reply.Delivers data →
    (nodeId, data) ∈ images ∧ call.record (nodeId, data) ∈ after.store.renders

theorem isGot_of_downloads {asks downloads : List Exchange} {fetched : List (String × String)}
    (hdownloads : Downloads settings (gathered [] asks) (call.missing before) downloads fetched)
    (hstore : after.store =
      before.store.saveRenders call.fileKey fetched call.format call.lastModified)
    {nodeId : String} (hnode : nodeId ∈ call.missing before) {url : Json}
    (hurl : lastNamed? asks nodeId = some url) (hgiven : url.isGiven = true) :
    IsGot settings call (asks ++ downloads) (call.stored before ++ fetched) after nodeId url := by
  have hget : (gathered [] asks).get nodeId = url := by
    rw [get_gathered, hurl, Option.getD_some]
  obtain ⟨reply, hreply, hdata⟩ := hdownloads.exists_reply hnode (by rwa [hget])
  rw [hget] at hreply
  refine ⟨reply, List.mem_append_right asks hreply, fun data hdelivers ↦ ?_⟩
  have himage := hdata data hdelivers
  have hnodup := hdownloads.sublist.nodup (call.nodup_missing before)
  refine ⟨List.mem_append_right _ himage, ?_⟩
  rw [hstore]
  exact Store.mem_saveRenders hnodup himage

/-- In an export that comes to a result, either all requests to the service went well, and then
whatever was not in the store is got from the last address that was given for it; or the service
failed, and then nothing but what was stored is returned. -/
theorem export_gets_named (h : call.run settings before = (.ok images, after)) :
    (∀ x ∈ toService (exchanges before after),
      x.1.AsksRenders settings call.fileKey call.format call.scale) ∧
    ((∀ x ∈ toService (exchanges before after), x.2.GoesOn) ∧
        (∀ nodeId ∈ call.nodeIds, (call.stored before).lookup nodeId = none → ∀ url,
          lastNamed? (toService (exchanges before after)) nodeId = some url →
          url.isGiven = true → IsGot settings call (exchanges before after) images after nodeId url) ∨
      (∃ status reason, Stops settings call.fileKey call.format call.scale (exchanges before after)
          (.serviceFailure status reason)) ∧
        images = call.stored before ∧ after.store = before.store) := by
  obtain ⟨xs, hfollows, hends⟩ := exportEnds_run settings call before
  rw [h] at hfollows hends
  rw [hfollows.exchanges_eq]
  cases hends with
  | stored hxs hmissing _ =>
      have hnone : toService xs = [] := by rw [hxs]; rfl
      rw [hnone]
      refine ⟨fun x hx ↦ absurd hx List.not_mem_nil, Or.inl ⟨fun x hx ↦ ?_, ?_⟩⟩
      · exact absurd hx List.not_mem_nil
      · intro nodeId hnode hstored
        have hmem := RenderCall.mem_missing.mpr ⟨hnode, hstored⟩
        rw [hmissing] at hmem
        exact absurd hmem List.not_mem_nil
  | downloaded hxs hasks hdownloads hstore =>
      rename_i asks downloads fetched
      have hall : toService xs = asks := by
        rw [hxs, toService_append, hdownloads.toService_eq, List.append_nil,
          toService_eq_self fun x hx ↦ (hasks x hx).1]
      rw [hall, hxs]
      refine ⟨fun x hx ↦ (hasks x hx).1, Or.inl ⟨fun x hx ↦ (hasks x hx).2, ?_⟩⟩
      intro nodeId hnode hstored url hurl hgiven
      have hmem := RenderCall.mem_missing.mpr ⟨hnode, hstored⟩
      exact isGot_of_downloads hdownloads hstore hmem hurl hgiven
  | givenUp hstops hstore =>
      rw [toService_eq_self hstops.asks]
      exact ⟨hstops.asks, Or.inr ⟨⟨_, _, hstops⟩, rfl, hstore⟩⟩

/-- Settings with batches of a single node. -/
def oneByOne : Settings := { withToken with imageBatchSize := 1 }

def sunAndMoon : RenderCall := ⟨"Ab1", ["1:1", "1:2"], "svg", 1, .null⟩

def sunAddress : Reply :=
  .response { body := "\x7b\"images\":\x7b\"1:1\":\"https://img/sun\"\x7d\x7d" }

/-- A session in which the first of two nodes is rendered and the second is not. -/
def moonless : Session where
  replies := [sunAddress, .response { body := "\x7b\"images\":\x7b\"1:2\":null\x7d\x7d" },
    .response { body := "<svg/>" }]

/-- A session in which the service fails at the second of two nodes. -/
def moonRefused : Session where
  replies := [sunAddress, .response { status := 500, body := "boom" },
    .response { body := "<svg/>" }]

/-- Whether an export has come to a result and the address of the sun was the last for its node. -/
def isSunNamed (before : Session) : Bool :=
  (sunAndMoon.run oneByOne before).1.toOption.isSome &&
    ((sunAndMoon.stored before).lookup "1:1").isNone &&
    (lastNamed? (toService (exchanges before (sunAndMoon.run oneByOne before).2)) "1:1").any
      (·.isStr "https://img/sun")

theorem exists_sunNamed (h : isSunNamed before = true) : ∃ images after,
    sunAndMoon.run oneByOne before = (.ok images, after) ∧
      (sunAndMoon.stored before).lookup "1:1" = none ∧
      lastNamed? (toService (exchanges before after)) "1:1" = some (.str "https://img/sun") := by
  simp only [isSunNamed, Bool.and_eq_true] at h
  obtain ⟨⟨hreturns, hstored⟩, hnamed⟩ := h
  cases hrun : sunAndMoon.run oneByOne before with
  | mk result after =>
      rw [hrun] at hreturns hnamed
      cases result with
      | error fault => exact Bool.noConfusion hreturns
      | ok images =>
          refine ⟨images, after, rfl, Option.isNone_iff_eq_none.mp hstored, ?_⟩
          dsimp only at hnamed
          cases hurl : lastNamed? (toService (exchanges before after)) "1:1" with
          | none =>
              rw [hurl] at hnamed
              exact Bool.noConfusion hnamed
          | some url =>
              rw [hurl] at hnamed
              cases url with
              | str address => rw [eq_of_beq hnamed]
              | null | bool _ | int _ | float _ | nan | arr _ | obj _ =>
                exact Bool.noConfusion hnamed

/-- What was named in the first batch is got after the second. -/
theorem export_gets_named_moonless : ∃ images after,
    sunAndMoon.run oneByOne moonless = (.ok images, after) ∧
      IsGot oneByOne sunAndMoon (exchanges moonless after) images after "1:1"
        (.str "https://img/sun") := by
  have hnamed : isSunNamed moonless = true := by decide +kernel
  obtain ⟨images, after, hrun, hstored, hurl⟩ := exists_sunNamed hnamed
  refine ⟨images, after, hrun, ?_⟩
  rcases (export_gets_named hrun).2 with ⟨_, hgot⟩ | ⟨_, himages, _⟩
  · exact hgot "1:1" (by decide) hstored _ hurl (by decide)
  · -- not nothing but what was stored is returned
    have hcheck : (sunAndMoon.run oneByOne moonless).1.toOption ≠
        some (sunAndMoon.stored moonless) := by decide +kernel
    rw [hrun, himages] at hcheck
    exact absurd rfl hcheck

/-- Not everything that was named is got. -/
theorem not_export_gets_named : ¬ ∀ (settings : Settings) (call : RenderCall)
    (before after : Session) (images : List (String × String)),
    call.run settings before = (.ok images, after) → ∀ nodeId ∈ call.nodeIds,
      (call.stored before).lookup nodeId = none → ∀ url,
        lastNamed? (toService (exchanges before after)) nodeId = some url → url.isGiven = true →
          IsGot settings call (exchanges before after) images after nodeId url := by
  intro h
  have hnamed : isSunNamed moonRefused = true := by decide +kernel
  obtain ⟨images, after, hrun, hstored, hurl⟩ := exists_sunNamed hnamed
  obtain ⟨reply, hreply, _⟩ :=
    h oneByOne sunAndMoon moonRefused after images hrun "1:1" (by decide) hstored _ hurl (by decide)
  -- all exchanges are with the service
  have hall : ((exchanges moonRefused (sunAndMoon.run oneByOne moonRefused).2).all
      (·.1.headers.isSome)) = true := by decide +kernel
  rw [hrun] at hall
  exact Bool.noConfusion (List.all_eq_true.mp hall _ hreply)

end DesignToWeb.Service
