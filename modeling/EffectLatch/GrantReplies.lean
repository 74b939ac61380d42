import EffectLatch.GrantForestInvariant
import EffectLatch.RunReplies

/-!
# What replies say of one grant

The replies a tenant's grants are shown in agree over a whole run: the
authority of a grant and its ancestry never change, what it has used only grows,
a revocation stays with its time, and a grant shown in the ancestry of another
has at least the authority of that one.
-/

namespace EffectLatch

/-- A stored grant as `fetch_grant_record` describes it. -/
def GrantRow.record (row : GrantRow) (ancestry : List Uuid) : GrantRecord where
  id := row.id
  parentId := row.parentId
  depth := row.depth
  actions := row.actions
  destinations := row.destinations
  projects := row.projects
  expiresAt := row.expiresAt
  maxEffects := row.maxEffects
  usedEffects := row.usedEffects
  revokedAt := row.revokedAt
  ancestry := ancestry

/-- The order between two grants is that between their later versions. -/
theorem GrantRow.Narrows.of_evolved {row above newRow newAbove : GrantRow}
    (narrows : newRow.Narrows newAbove) (evolved : row.Evolves newRow)
    (aboveEvolved : above.Evolves newAbove) : row.Narrows above := by
  obtain ⟨actions, destinations, projects, expiresAt, maxEffects⟩ := narrows
  constructor
  · rwa [← evolved.actions, ← aboveEvolved.actions]
  · rwa [← evolved.destinations, ← aboveEvolved.destinations]
  · rwa [← evolved.projects, ← aboveEvolved.projects]
  · rwa [← evolved.expiresAt, ← aboveEvolved.expiresAt]
  · rwa [← evolved.maxEffects, ← aboveEvolved.maxEffects]

namespace Database

theorem Extends.grant_evolves {db next : Database} {tenant id : Uuid}
    {row new : GrantRow} (extended : db.Extends next)
    (found : db.findGrant tenant id = some row)
    (foundLater : next.findGrant tenant id = some new) : row.Evolves new := by
  obtain ⟨other, otherFound, evolved⟩ := extended.findGrant_eq_some found
  obtain rfl := Option.some.inj (otherFound.symm.trans foundLater)
  exact evolved

/-- The record is of a stored grant with its ancestry. -/
inductive Describes (db : Database) (tenant : Uuid) : GrantRecord → Prop
  | stored {row : GrantRow} {path : List Uuid}
      (found : db.findGrant tenant row.id = some row)
      (lineage : db.Ancestry tenant row.id path) :
      Describes db tenant (row.record path)

variable {sha256 : Sha256} {db next : Database} {clock : Clock}
  {tenant id : Uuid} {record : GrantRecord}

theorem describes_of_fetch {path : List Uuid}
    (lineage : db.Ancestry tenant id path)
    (fetched : db.fetchGrantRecord tenant id path = .ok record) :
    db.Describes tenant record := by
  simp only [fetchGrantRecord, Except.bind_eq_ok_iff, Except.fetch_eq_ok_iff,
    Except.pure_eq_ok_iff] at fetched
  obtain ⟨row, found, rfl⟩ := fetched
  obtain ⟨_, _, rfl⟩ := findGrant_eq_some_iff.mp found
  exact .stored found lineage

/-- The identities of a loaded chain are the ancestry. -/
theorem GrantForest.ancestry_of_load (forest : db.GrantForest)
    {chain : List Grant}
    (loaded : db.loadGrantChainLocked tenant id = .ok chain) :
    db.Ancestry tenant id (chain.map Grant.id) := by
  obtain ⟨path, lineage, rfl⟩ := forest.exists_of_load loaded
  have ids : ((db.chainRows tenant path).map GrantRow.decoded).map Grant.id =
      path := by
    rw [List.map_map]
    exact forest.ids_chainRows lineage
  rwa [ids]

theorem GrantForest.describes_of_getGrant (forest : db.GrantForest)
    (performed : db.perform sha256 ⟨.getGrant tenant id, clock⟩ =
      (.ok (.grant record), next)) : next.Describes tenant record := by
  have done := execute_of_perform performed
  simp only [execute, Except.map_eq_ok_iff, Prod.exists, Prod.map,
    Prod.mk.injEq, Response.grant.injEq, id_eq, getGrant,
    Except.bind_eq_ok_iff, Except.pure_eq_ok_iff] at done
  obtain ⟨_, _, ⟨chain, loaded, _, fetched, rfl, rfl⟩, rfl, rfl⟩ := done
  exact describes_of_fetch (forest.ancestry_of_load loaded) fetched

theorem GrantForest.describes_of_createGrant (forest : db.GrantForest)
    {parent : Option Uuid} {actorId : String} {authority : Authority}
    (performed : db.perform sha256
      ⟨.createGrant id tenant parent actorId authority, clock⟩ =
        (.ok (.grant record), next)) : next.Describes tenant record := by
  have moved := transition_of_perform performed
  have extended := moved.extends
  have found : ∃ depth, next.findGrant tenant id =
      some (createdGrantRow id tenant parent depth authority) := by
    cases moved with
    | unchanged observed => cases observed
    | grantCreated _ _ _ _ inserted =>
        exact ⟨_, findGrant_eq_some_iff.mpr ⟨inserted.new_mem, rfl, rfl⟩⟩
  obtain ⟨depth, found⟩ := found
  have done := execute_of_perform performed
  simp only [execute, Except.map_eq_ok_iff, Prod.exists, Prod.map,
    Prod.mk.injEq, Response.grant.injEq, id_eq, createGrant,
    Except.bind_eq_ok_iff, Except.pure_eq_ok_iff] at done
  obtain ⟨_, _, ⟨_, _, ancestry, loaded, _, _, _, _, _, _, _, _, _, _, _, _, _,
    _, _, fetched, rfl, rfl⟩, rfl, rfl⟩ := done
  refine describes_of_fetch ?_ fetched
  cases parent with
  | none =>
      simp only [creationAncestry, Except.bind_eq_ok_iff,
        Except.pure_eq_ok_iff] at loaded
      obtain ⟨_, _, rfl⟩ := loaded
      exact .root ⟨_, found, rfl⟩
  | some above =>
      exact .child (extended.ancestry (forest.ancestry_of_load loaded))
        ⟨_, found, rfl⟩

end Database

namespace Control

namespace Api

/-- A view of a grant and a later one. -/
structure GrantView.Develops (first second : GrantView) : Prop where
  granted : second =
    { first with
      usedEffects := second.usedEffects
      remainingEffects := second.remainingEffects
      revokedAt := second.revokedAt }
  used : first.usedEffects ≤ second.usedEffects
  remaining : second.remainingEffects ≤ first.remainingEffects
  revoked : ∀ time, first.revokedAt = some time →
    second.revokedAt = some time

/-- A view of a grant and one of a grant it descends from. -/
structure GrantView.Narrows (view above : GrantView) : Prop where
  actions : view.actions ⊆ above.actions
  destinations : view.destinations ⊆ above.destinations
  projects : view.projects ⊆ above.projects
  expiresAt : view.expiresAt ≤ above.expiresAt
  maxEffects : view.maxEffects ≤ above.maxEffects

/-- What a reply may show of a tenant's grants after an earlier reply. -/
structure Body.GrantsFollow (first second : Body) : Prop where
  views : ∀ view later, first = .grant view → second = .grant later →
    later.id = view.id → view.Develops later
  above : ∀ view later, first = .grant view → second = .grant later →
    view.id ∈ later.ancestry → later.Narrows view
  below : ∀ view later, first = .grant view → second = .grant later →
    later.id ∈ view.ancestry → view.Narrows later
  revoked : ∀ id time view, first = .revocation id time →
    second = .grant view → view.id = id → view.revokedAt = some time
  confirmed : ∀ view id time, first = .grant view →
    second = .revocation id time → id = view.id →
    ∀ earlier, view.revokedAt = some earlier → time = earlier
  repeated : ∀ id time again, first = .revocation id time →
    second = .revocation id again → again = time

theorem GrantView.id_of (row : GrantRow) (path : List Uuid) :
    (GrantView.of (row.record path)).id = row.id :=
  rfl

theorem saturatingSub_anti {whole less more : Int} (used : less ≤ more) :
    saturatingSub whole more ≤ saturatingSub whole less := by
  unfold saturatingSub
  omega

theorem GrantView.develops {row new : GrantRow} (evolves : row.Evolves new)
    (path : List Uuid) :
    (GrantView.of (row.record path)).Develops
      (GrantView.of (new.record path)) where
  granted := by
    simp only [GrantView.of, GrantRow.record, evolves.id, evolves.parentId,
      evolves.depth, evolves.actions, evolves.destinations, evolves.projects,
      evolves.expiresAt, evolves.maxEffects]
  used := evolves.usedEffects
  remaining := by
    simp only [GrantView.of, GrantRow.record, evolves.maxEffects]
    exact saturatingSub_anti evolves.usedEffects
  revoked := evolves.revoked

theorem GrantView.narrows {row above : GrantRow} (narrows : row.Narrows above)
    (path upper : List Uuid) :
    (GrantView.of (row.record path)).Narrows
      (GrantView.of (above.record upper)) :=
  ⟨narrows.actions, narrows.destinations, narrows.projects, narrows.expiresAt,
    narrows.maxEffects⟩

end Api

namespace Daemon

open Api

variable {daemon : Daemon} {event : Event} {tenant : Uuid}

/-- What an answered request for one tenant was told. -/
def told (daemon : Daemon) (event : Event) : Option (Uuid × Body) := do
  let command ← daemon.command event.call
  let tenant ← command.issuedFor
  let reply ← event.outcome
  pure (tenant, reply.body)

theorem told_eq_some_iff {body : Body} :
    daemon.told event = some (tenant, body) ↔
      ∃ command, daemon.command event.call = some command ∧
        command.issuedFor = some tenant ∧
        event.outcome.map Reply.body = some body := by
  simp [told, Option.bind_eq_some_iff]

/-- A grant in a reply is stored after the call. -/
theorem grant_described {view : GrantView}
    (forest : event.before.GrantForest)
    (done : daemon.perform event.before event.call =
      (event.outcome, event.after))
    (told : daemon.told event = some (tenant, .grant view)) :
    ∃ record, event.after.Describes tenant record ∧
      view = GrantView.of record := by
  obtain ⟨asked, called, issued, said⟩ := told_eq_some_iff.mp told
  obtain ⟨command, response, reply, commanded, performed, shows, shown⟩ :=
    shows_of_said done said (by simp)
  obtain rfl := Option.some.inj (commanded.symm.trans called)
  cases shows with
  | created =>
      obtain rfl := Option.some.inj issued
      exact ⟨_, forest.describes_of_createGrant performed,
        (Body.grant.inj shown).symm⟩
  | grant =>
      obtain rfl := Option.some.inj issued
      exact ⟨_, forest.describes_of_getGrant performed,
        (Body.grant.inj shown).symm⟩
  | _ => simp at shown

/-- A revocation in a reply is stored after the call. -/
theorem revocation_stored {id : Uuid} {time : Timestamp}
    (done : daemon.perform event.before event.call =
      (event.outcome, event.after))
    (told : daemon.told event = some (tenant, .revocation id time)) :
    ∃ row, event.after.findGrant tenant id = some row ∧
      row.revokedAt = some time := by
  obtain ⟨asked, called, issued, said⟩ := told_eq_some_iff.mp told
  obtain ⟨command, response, reply, commanded, performed, shows, shown⟩ :=
    shows_of_said done said (by simp)
  obtain rfl := Option.some.inj (commanded.symm.trans called)
  have moved := Database.transition_of_perform performed
  generalize event.after = after at moved ⊢
  cases shows with
  | revocation =>
      obtain rfl := Option.some.inj issued
      obtain ⟨rfl, rfl⟩ := Body.revocation.inj shown
      cases moved with
      | unchanged observed =>
          cases observed with
          | revokedBefore found revoked => exact ⟨_, found, revoked⟩
      | grantRevoked found _ replaced =>
          obtain ⟨_, tenantEq, idEq⟩ := Database.findGrant_eq_some_iff.mp found
          exact ⟨_, Database.findGrant_eq_some_iff.mpr
            ⟨replaced.new_mem, tenantEq, idEq⟩, rfl⟩
  | _ => simp at shown

theorem Run.grantForest {history : List Event} {db : Database}
    (run : daemon.Run history db) : db.GrantForest :=
  run.reachable.grantForest

end Daemon

open Api

/-- In every run of the daemon, what its replies show of one tenant's grants
agrees: every reply follows each earlier one. -/
theorem grant_replies_follow {daemon : Daemon} {history : List Daemon.Event}
    {db : Database} (run : daemon.Run history db) :
    (history.filterMap daemon.told).Pairwise fun first second =>
      second.1 = first.1 → first.2.GrantsFollow second.2 := by
  rw [List.pairwise_filterMap]
  refine run.pairwise _ ?_
  rintro _ _ _ first second reached firstDone continued reachedLater
    secondDone ⟨_, body⟩ told ⟨tenant, later⟩ toldLater rfl
  have forest := Daemon.Run.grantForest reached
  have forestLater := Daemon.Run.grantForest reachedLater
  have forestAfter : second.after.GrantForest := by
    have reachedAfter := reachedLater.next second.call trivial
    rw [secondDone] at reachedAfter
    exact Daemon.Run.grantForest reachedAfter
  have extended : first.after.Extends second.after :=
    ((Daemon.develops_of_execution continued).trans
      (Daemon.develops_of_done secondDone)).extended
  constructor
  · rintro view later rfl rfl sameId
    obtain ⟨_, ⟨found, lineage⟩, rfl⟩ :=
      Daemon.grant_described forest firstDone told
    obtain ⟨_, ⟨foundLater, lineageLater⟩, rfl⟩ :=
      Daemon.grant_described forestLater secondDone toldLater
    rw [GrantView.id_of, GrantView.id_of] at sameId
    rw [sameId] at foundLater lineageLater
    rw [lineageLater.unique (second.after.forest_delegates tenant)
      (extended.ancestry lineage)]
    exact GrantView.develops (extended.grant_evolves found foundLater) _
  · rintro view later rfl rfl member
    obtain ⟨_, ⟨found, lineage⟩, rfl⟩ :=
      Daemon.grant_described forest firstDone told
    obtain ⟨_, ⟨foundLater, lineageLater⟩, rfl⟩ :=
      Daemon.grant_described forestLater secondDone toldLater
    obtain ⟨above, foundAbove, narrows⟩ :=
      forestAfter.found_of_mem lineageLater foundLater member
    have evolves := extended.grant_evolves found foundAbove
    exact GrantView.narrows (narrows.of_evolved (.refl _) evolves) _ _
  · rintro view later rfl rfl member
    obtain ⟨_, ⟨found, lineage⟩, rfl⟩ :=
      Daemon.grant_described forest firstDone told
    obtain ⟨_, ⟨foundLater, lineageLater⟩, rfl⟩ :=
      Daemon.grant_described forestLater secondDone toldLater
    obtain ⟨new, foundNew, evolves⟩ := extended.findGrant_eq_some found
    obtain ⟨above, foundAbove, narrows⟩ :=
      forestAfter.found_of_mem (extended.ancestry lineage) foundNew member
    obtain rfl := Option.some.inj (foundAbove.symm.trans foundLater)
    exact GrantView.narrows (narrows.of_evolved evolves (.refl _)) _ _
  · rintro id time view rfl rfl sameId
    obtain ⟨row, found, revoked⟩ := Daemon.revocation_stored firstDone told
    obtain ⟨_, ⟨foundLater, _⟩, rfl⟩ :=
      Daemon.grant_described forestLater secondDone toldLater
    rw [GrantView.id_of] at sameId
    rw [sameId] at foundLater
    exact (extended.grant_evolves found foundLater).revoked time revoked
  · rintro view id time rfl rfl sameId earlier shown
    obtain ⟨_, ⟨found, _⟩, rfl⟩ :=
      Daemon.grant_described forest firstDone told
    obtain ⟨row, foundLater, revoked⟩ :=
      Daemon.revocation_stored secondDone toldLater
    rw [sameId, GrantView.id_of] at foundLater
    have stays :=
      (extended.grant_evolves found foundLater).revoked earlier shown
    exact Option.some.inj (revoked.symm.trans stays)
  · rintro id time again rfl rfl
    obtain ⟨row, found, revoked⟩ := Daemon.revocation_stored firstDone told
    obtain ⟨new, foundLater, revokedLater⟩ :=
      Daemon.revocation_stored secondDone toldLater
    have stays := (extended.grant_evolves found foundLater).revoked time revoked
    exact Option.some.inj (revokedLater.symm.trans stays)

namespace Sample

/-- A root grant is made, read, revoked and read again. -/
def grantSteps : List Step :=
  submission.take 2 ++
    [asked ownerToken 0 (.getGrant grantText),
      asked ownerToken 0 (.revoke grantText (.ok ⟨"done"⟩)),
      asked ownerToken 0 (.getGrant grantText)]

def grantHistory : List Daemon.Event :=
  (performAll daemon.perform Database.migrated grantSteps).1

theorem grantHistory_run : daemon.Run grantHistory (reached grantSteps) :=
  run_reached grantSteps

/-- The tenants of the last two replies and the grant they name, with the time
of the revocation and the view after it. -/
def revokedAndRead (told : List (Uuid × Body)) :
    Option ((Uuid × Uuid × Timestamp) × Uuid × GrantView) :=
  match told with
  | [_, _, (first, .revocation id time), (second, .grant view)] =>
      some ((first, id, time), second, view)
  | _ => none

theorem revokedAndRead_history :
    (revokedAndRead (grantHistory.filterMap daemon.told)).map
        (fun shown => (shown.1, shown.2.1, shown.2.2.id)) =
      some ((1, 10, 5), 1, 10) := by
  decide +kernel

end Sample

/-- The grant read after its revocation shows the time of the revocation. -/
theorem grant_replies_follow_revoked :
    ∃ first second view,
      Sample.grantHistory.filterMap Sample.daemon.told =
        [first, second, (1, .revocation 10 5), (1, .grant view)] ∧
      view.revokedAt = some 5 := by
  have follow := grant_replies_follow Sample.grantHistory_run
  have shown := Sample.revokedAndRead_history
  generalize Sample.grantHistory.filterMap Sample.daemon.told = told
    at follow shown
  unfold Sample.revokedAndRead at shown
  split at shown
  next first second tenant id time reader view =>
    simp only [Option.map_some, Option.some.injEq, Prod.mk.injEq] at shown
    obtain ⟨⟨rfl, rfl, rfl⟩, rfl, sameId⟩ := shown
    have last : (Body.revocation 10 5).GrantsFollow (.grant view) := by
      simp only [List.pairwise_cons, List.mem_cons, List.not_mem_nil] at follow
      exact follow.2.2.1 _ (.inl rfl) rfl
    exact ⟨first, second, view, rfl, last.revoked 10 5 view rfl rfl sameId⟩
  next => simp at shown

end Control

end EffectLatch
