import TaskControl.Deployment.Planning
import TaskControl.Domain.Manifest
import TaskControl.Runtime.Service

/-!
# Applying the estate

`DeploymentService.apply` installs the manifests of all published revisions, lets the
scheduler apply the plan, and after a success uninstalls what the plan removed.  A
rollback of the scheduler leaves the manifests; a removal that is planned in the name of
a desired slug takes the manifest of a live capability with it.
-/

set_option autoImplicit false

namespace TaskControl.Deployment

open PythonText Effects
open TaskControl.Runtime (Fault answer)
open Cron (CronLayout DeploymentPlan PlanEntry DesiredArtefact ApplyResult Faults Host Retired)

/-! ## The host with its manifests -/

/-- The manifests are files named by their slug. -/
structure Site where
  host : Host
  manifests : Text → Option InstalledRevision

abbrev SiteM := Program Raised Site

/-- A call of the manifest store, which may fail before it took effect or after. -/
def manifestCall (fault : Fault)
    (change : (Text → Option InstalledRevision) → Text → Option InstalledRevision) :
    SiteM Unit := do
  if fault.commits then modify fun site => { site with manifests := change site.manifests }
  answer fault.raised

/-- `install` of the manifest store: the file is renamed over the one that was there. -/
def installManifest (fault : Fault) (manifest : InstalledRevision) : SiteM Unit :=
  manifestCall fault fun manifests =>
    Function.update manifests manifest.slug.value (some manifest)

/-- `remove` of the manifest store, which ignores a file that is already gone. -/
def removeManifest (fault : Fault) (slug : Slug) : SiteM Unit :=
  manifestCall fault fun manifests => Function.update manifests slug.value none

/-! ## The service -/

/-- The loop of `_published_pairs` over one page, and the number of the next statement. -/
def pairsOf (history : History) : List Task → Nat → List (Task × TaskRevision) × Nat
  | [], statement => ([], statement)
  | task :: rest, statement =>
      match task.activeRevisionId with
      | none => pairsOf history rest statement
      | some revisionId =>
          match (history.at_ statement).revisions revisionId with
          | none => pairsOf history rest (statement + 1)
          | some revision =>
              ((task, revision) :: (pairsOf history rest (statement + 1)).1,
                (pairsOf history rest (statement + 1)).2)

/-- `_published_pairs`; the fuel is a bound on the pages. -/
def publishedPairs (history : History) :
    Nat → Nat → Nat → Option (List (Task × TaskRevision))
  | 0, _, _ => none
  | fuel + 1, offset, statement =>
      match listTasks (history.at_ statement) [.active] pageSize offset with
      | [] => some []
      | task :: rest =>
          (publishedPairs history fuel (offset + (task :: rest).length)
              (pairsOf history (task :: rest) (statement + 1)).2).map
            fun later => (pairsOf history (task :: rest) (statement + 1)).1 ++ later

/-- `_install_manifests` over the pairs. -/
def installManifests (faults : Nat → Fault) : Nat → List (Task × TaskRevision) → SiteM Unit
  | _, [] => pure ()
  | n, (task, revision) :: rest => do
      let manifest ← answer ((InstalledRevision.install task revision).mapError .taskControl)
      installManifest (faults n) manifest
      installManifests faults (n + 1) rest

/-- `_uninstall_removed`. -/
def uninstallRemoved (faults : Nat → Fault) : Nat → DeploymentPlan → SiteM Unit
  | _, [] => pure ()
  | n, entry :: rest => do
      if entry.change = .remove then
        let slug ← answer ((Slug.make entry.slug).mapError .taskControl)
        removeManifest (faults n) slug
      uninstallRemoved faults (n + 1) rest

/-- The scheduler's `apply`, on the host alone. -/
def applyOnHost (faults : Faults) (layout : CronLayout) (plan : DeploymentPlan) :
    SiteM ApplyResult := fun site =>
  match Cron.apply faults layout plan (.start site.host) with
  | .ok result session => .ok result { site with host := session.host }
  | .error raised session => .error raised { site with host := session.host }

/-- The calls that fail, of the crontabs and directories and of the manifests. -/
structure ApplyFaults where
  stores : Faults
  installs : Nat → Fault
  removals : Nat → Fault

/-- The part of `apply` behind the plan. -/
def carryOut (layout : CronLayout) (faults : ApplyFaults) (plan : DeploymentPlan)
    (pairs : List (Task × TaskRevision)) : SiteM ApplyResult := do
  installManifests faults.installs 0 pairs
  let result ← applyOnHost faults.stores layout plan
  if result.succeeded then uninstallRemoved faults.removals 0 plan
  return result

/-- `apply` of a reviewed plan or of a fresh one; the second session, which lists the published
pairs, may see other rows than the first. -/
def DeploymentService.apply (service : DeploymentService) (layout : CronLayout)
    (faults : ApplyFaults) (history later : History) (fuel : Nat)
    (reviewed : Option DeploymentPlan) : SiteM (Option ApplyResult) := do
  let site ← get
  let plan ← match reviewed with
    | some plan => pure (some plan)
    | none => answer ((service.plan history fuel layout site.host).mapError .taskControl)
  match plan, publishedPairs later fuel 0 0 with
  | some plan, some pairs => some <$> carryOut layout faults plan pairs
  | _, _ => return none

/-! ## What happens to the manifests -/

/-- The slugs that the plan removes. -/
def removedSlugs (plan : DeploymentPlan) : List Text :=
  (plan.filter fun entry => entry.change = .remove).map PlanEntry.slug

/-- The manifest under the slug is that of a listed pair. -/
def InstalledFrom (pairs : List (Task × TaskRevision)) (manifests : Text → Option InstalledRevision)
    (slug : Text) : Prop :=
  ∃ pair ∈ pairs, pair.1.slug.value = slug ∧ ∃ manifest,
    InstalledRevision.install pair.1 pair.2 = .ok manifest ∧ manifests slug = some manifest

/-- Manifests were only installed, and only those of the pairs. -/
def Grown (pairs : List (Task × TaskRevision)) (before after : Text → Option InstalledRevision) :
    Prop :=
  ∀ slug, after slug = before slug ∨ InstalledFrom pairs after slug

/-- All manifests of the pairs are there. -/
def AllInstalled (pairs : List (Task × TaskRevision))
    (manifests : Text → Option InstalledRevision) : Prop :=
  ∀ pair ∈ pairs, InstalledFrom pairs manifests pair.1.slug.value

/-- Manifests were only removed, and only those under the slugs. -/
def Shrunk (slugs : List Text) (before after : Text → Option InstalledRevision) : Prop :=
  ∀ slug, after slug = before slug ∨ slug ∈ slugs ∧ after slug = none

section

variable {pairs : List (Task × TaskRevision)} {pair : Task × TaskRevision}
  {before middle after : Text → Option InstalledRevision} {manifest : InstalledRevision}
  {slug : Text} {slugs : List Text}

theorem install_slug {task : Task} {revision : TaskRevision}
    (made : InstalledRevision.install task revision = .ok manifest) : manifest.slug = task.slug := by
  unfold InstalledRevision.install at made
  split at made
  · cases made
  · cases made
    rfl

theorem InstalledFrom.listed (installed : InstalledFrom pairs after slug) :
    InstalledFrom (pair :: pairs) after slug := by
  obtain ⟨other, member, rest⟩ := installed
  exact ⟨other, List.mem_cons_of_mem _ member, rest⟩

theorem Grown.refl (manifests : Text → Option InstalledRevision) : Grown pairs manifests manifests :=
  fun _ => .inl rfl

/-- One more manifest is written before the others. -/
theorem Grown.cons (made : InstalledRevision.install pair.1 pair.2 = .ok manifest)
    (grown : Grown pairs (Function.update before manifest.slug.value (some manifest)) after) :
    Grown (pair :: pairs) before after ∧ InstalledFrom (pair :: pairs) after pair.1.slug.value := by
  have named : manifest.slug.value = pair.1.slug.value := by rw [install_slug made]
  have own : InstalledFrom (pair :: pairs) after pair.1.slug.value := by
    rcases grown pair.1.slug.value with same | later
    · rw [named, Function.update_self] at same
      exact ⟨pair, List.mem_cons_self, rfl, manifest, made, same⟩
    · exact later.listed
  refine ⟨fun slug => ?_, own⟩
  by_cases here : slug = pair.1.slug.value
  · rw [here]
    exact .inr own
  · rcases grown slug with same | later
    · rw [named, Function.update_of_ne here] at same
      exact .inl same
    · exact .inr later.listed

theorem Shrunk.refl (manifests : Text → Option InstalledRevision) :
    Shrunk slugs manifests manifests := fun _ => .inl rfl

/-- One more manifest is removed before the others. -/
theorem Shrunk.cons {first : Text} (shrunk : Shrunk slugs (Function.update before first none) after) :
    Shrunk (first :: slugs) before after := by
  intro slug
  rcases shrunk slug with same | ⟨member, gone⟩
  · by_cases here : slug = first
    · rw [here, Function.update_self] at same
      rw [here]
      exact .inr ⟨List.mem_cons_self, same⟩
    · rw [Function.update_of_ne here] at same
      exact .inl same
  · exact .inr ⟨List.mem_cons_of_mem _ member, gone⟩

end

/-! ## How the parts end -/

theorem manifestCall_ends (fault : Fault)
    (change : (Text → Option InstalledRevision) → Text → Option InstalledRevision) (site : Site) :
    Ends (manifestCall fault change) site
      (fun _ site' => site' = { site with manifests := change site.manifests })
      (fun _ site' => site' = site ∨ site' = { site with manifests := change site.manifests }) := by
  cases fault with
  | none => exact rfl
  | before error => exact .inl rfl
  | after error => exact .inr rfl

theorem answer_mapped_ends {σ α : Type} (result : Except TaskControlError α) (s : σ) :
    Ends (answer (result.mapError Raised.taskControl) : Program Raised σ α) s
      (fun value s' => s' = s ∧ result = .ok value) (fun _ s' => s' = s) := by
  cases result with
  | error problem => exact rfl
  | ok value => exact ⟨rfl, rfl⟩

/-- However the installation ends, it has installed manifests of the pairs and nothing else. -/
theorem installManifests_ends (faults : Nat → Fault) (pairs : List (Task × TaskRevision)) :
    ∀ (n : Nat) (site : Site), Ends (installManifests faults n pairs) site
      (fun _ site' => site'.host = site.host ∧ Grown pairs site.manifests site'.manifests ∧
        AllInstalled pairs site'.manifests)
      (fun _ site' => site'.host = site.host ∧ Grown pairs site.manifests site'.manifests) := by
  induction pairs with
  | nil => exact fun n site => ⟨rfl, Grown.refl _, fun _ member => absurd member List.not_mem_nil⟩
  | cons pair rest ih =>
      obtain ⟨task, revision⟩ := pair
      intro n site
      unfold installManifests
      refine Ends.bind ((answer_mapped_ends _ site).mono ?_ ?_)
      · rintro manifest _ ⟨rfl, made⟩
        refine Ends.bind ((manifestCall_ends (faults n) _ _).mono ?_ ?_)
        · rintro _ _ rfl
          refine (ih (n + 1) _).mono ?_ ?_
          · rintro _ site' ⟨host, grown, all⟩
            obtain ⟨grown', own⟩ := @Grown.cons rest (task, revision) _ _ manifest made grown
            refine ⟨host, grown', fun other member => ?_⟩
            rcases List.mem_cons.mp member with rfl | later
            · exact own
            · exact (all other later).listed
          · rintro _ site' ⟨host, grown⟩
            exact ⟨host, (@Grown.cons rest (task, revision) _ _ manifest made grown).1⟩
        · rintro _ site' (rfl | rfl)
          · exact ⟨rfl, Grown.refl _⟩
          · exact ⟨rfl, (@Grown.cons rest (task, revision) _ _ manifest made (Grown.refl _)).1⟩
      · rintro _ site' rfl
        exact ⟨rfl, Grown.refl _⟩

/-- What is left where everything under the slugs is removed. -/
def without (slugs : List Text) (manifests : Text → Option InstalledRevision) :
    Text → Option InstalledRevision :=
  fun slug => if slugs.any fun other => other == slug then none else manifests slug

theorem without_mem {slugs : List Text} {manifests : Text → Option InstalledRevision} {slug : Text}
    (member : slug ∈ slugs) : without slugs manifests slug = none := by
  have found : (slugs.any fun other => other == slug) = true :=
    List.any_eq_true.mpr ⟨slug, member, beq_self_eq_true slug⟩
  unfold without
  rw [if_pos found]

theorem without_not_mem {slugs : List Text} {manifests : Text → Option InstalledRevision}
    {slug : Text} (foreign : slug ∉ slugs) : without slugs manifests slug = manifests slug := by
  unfold without
  rw [if_neg]
  intro found
  obtain ⟨other, member, same⟩ := List.any_eq_true.mp found
  exact foreign (eq_of_beq same ▸ member)

theorem without_cons (first : Text) (rest : List Text)
    (manifests : Text → Option InstalledRevision) :
    without rest (Function.update manifests first none) = without (first :: rest) manifests := by
  funext slug
  by_cases later : slug ∈ rest
  · rw [without_mem later, without_mem (List.mem_cons_of_mem _ later)]
  · rw [without_not_mem later]
    by_cases here : slug = first
    · rw [here, Function.update_self, without_mem List.mem_cons_self]
    · rw [Function.update_of_ne here, without_not_mem]
      exact fun member => (List.mem_cons.mp member).elim here later

theorem Slug.make_named {text : Text} {slug : Slug} (made : Slug.make text = .ok slug) :
    slug.value = text := by
  unfold Slug.make at made
  split at made
  · cases made
  · split at made
    · split at made
      · cases made
        rfl
      · cases made
    · cases made

theorem uninstallRemoved_ends (faults : Nat → Fault) (plan : DeploymentPlan) :
    ∀ (n : Nat) (site : Site), Ends (uninstallRemoved faults n plan) site
      (fun _ site' => site' = { site with manifests := without (removedSlugs plan) site.manifests })
      (fun _ site' => site'.host = site.host ∧
        Shrunk (removedSlugs plan) site.manifests site'.manifests) := by
  induction plan with
  | nil => exact fun n site => rfl
  | cons entry rest ih =>
      intro n site
      unfold uninstallRemoved
      by_cases removal : entry.change = .remove
      · have slugs : removedSlugs (entry :: rest) = entry.slug :: removedSlugs rest := by
          simp [removedSlugs, removal]
        rw [if_pos removal, slugs]
        refine Ends.bind ((answer_mapped_ends _ site).mono ?_ ?_)
        · rintro slug _ ⟨rfl, made⟩
          have named := Slug.make_named made
          refine Ends.bind ((manifestCall_ends (faults n) _ _).mono ?_ ?_)
          · rintro _ _ rfl
            refine (ih (n + 1) _).mono ?_ ?_
            · rintro _ site' rfl
              rw [named, without_cons]
            · rintro _ site' ⟨host, shrunk⟩
              rw [named] at shrunk
              exact ⟨host, shrunk.cons⟩
          · rintro _ site' (rfl | rfl)
            · exact ⟨rfl, Shrunk.refl _⟩
            · rw [named]
              exact ⟨rfl, (Shrunk.refl _).cons⟩
        · rintro _ site' rfl
          exact ⟨rfl, Shrunk.refl _⟩
      · have slugs : removedSlugs (entry :: rest) = removedSlugs rest := by
          simp [removedSlugs, removal]
        rw [if_neg removal, slugs]
        exact Ends.bind (ends_pure (ih (n + 1) site))

/-- Where the manifests stand when an apply ends: still being installed, with the host as it was;
all installed; or all installed and those of the removals on their way out after a success. -/
inductive Stage (layout : CronLayout) (faults : ApplyFaults) (plan : DeploymentPlan)
    (pairs : List (Task × TaskRevision)) (site : Site) : Site → Prop where
  | installing {site' : Site} (host : site'.host = site.host)
      (grown : Grown pairs site.manifests site'.manifests) : Stage layout faults plan pairs site site'
  | installed {site' : Site} (grown : Grown pairs site.manifests site'.manifests)
      (all : AllInstalled pairs site'.manifests) : Stage layout faults plan pairs site site'
  | removing {site' : Site} {middle : Text → Option InstalledRevision} {result : ApplyResult}
      {session : Cron.Session}
      (applied : Cron.apply faults.stores layout plan (.start site.host) = .ok result session)
      (succeeded : result.succeeded = true) (host : site'.host = session.host)
      (grown : Grown pairs site.manifests middle) (all : AllInstalled pairs middle)
      (shrunk : Shrunk (removedSlugs plan) middle site'.manifests) :
      Stage layout faults plan pairs site site'

theorem shrunk_without (slugs : List Text) (manifests : Text → Option InstalledRevision) :
    Shrunk slugs manifests (without slugs manifests) := by
  intro slug
  by_cases member : slug ∈ slugs
  · exact .inr ⟨member, without_mem member⟩
  · exact .inl (without_not_mem member)

/-- How an apply ends, and what a success means. -/
theorem carryOut_ends (layout : CronLayout) (faults : ApplyFaults) (plan : DeploymentPlan)
    (pairs : List (Task × TaskRevision)) (site : Site) :
    Ends (carryOut layout faults plan pairs) site
      (fun result site' => Stage layout faults plan pairs site site' ∧
        (result.succeeded = false → Grown pairs site.manifests site'.manifests) ∧
        (result.succeeded = true → ∃ session middle,
          Cron.apply faults.stores layout plan (.start site.host) = .ok result session ∧
            site'.host = session.host ∧ Grown pairs site.manifests middle ∧
            AllInstalled pairs middle ∧ site'.manifests = without (removedSlugs plan) middle))
      (fun _ site' => Stage layout faults plan pairs site site') := by
  unfold carryOut
  refine Ends.bind ((installManifests_ends faults.installs pairs 0 site).mono ?_ ?_)
  · rintro _ ready ⟨host, grown, all⟩
    have run : applyOnHost faults.stores layout plan ready =
        match Cron.apply faults.stores layout plan (.start site.host) with
        | .ok result session => .ok result { ready with host := session.host }
        | .error raised session => .error raised { ready with host := session.host } := by
      unfold applyOnHost
      rw [host]
    refine Ends.bind ?_
    cases applied : Cron.apply faults.stores layout plan (.start site.host) with
    | error raised session =>
        rw [applied] at run
        exact (ends_of_error run).mpr (.installed grown all)
    | ok result session =>
        rw [applied] at run
        refine (ends_of_ok run).mpr ?_
        by_cases succeeded : result.succeeded = true
        · rw [if_pos succeeded]
          refine Ends.bind ((uninstallRemoved_ends faults.removals plan 0 _).mono ?_ ?_)
          · rintro _ site' rfl
            refine ends_pure ⟨.removing applied succeeded rfl grown all (shrunk_without _ _), ?_, ?_⟩
            · intro failed
              rw [succeeded] at failed
              cases failed
            · exact fun _ => ⟨session, ready.manifests, rfl, rfl, grown, all, rfl⟩
          · rintro _ site' ⟨host', shrunk⟩
            exact .removing applied succeeded host' grown all shrunk
        · rw [if_neg succeeded]
          exact ends_pure ⟨.installed grown all, fun _ => grown,
            fun done => absurd done succeeded⟩
  · rintro _ site' ⟨host, grown⟩
    exact .installing host grown

/-! ## Whole applies -/

/-- The plan that an apply carries out: the reviewed one, or one made afresh. -/
def DeploymentService.Applies (service : DeploymentService) (layout : CronLayout)
    (history : History) (fuel : Nat) (reviewed : Option DeploymentPlan) (site : Site)
    (plan : DeploymentPlan) : Prop :=
  reviewed = some plan ∨
    reviewed = none ∧ service.plan history fuel layout site.host = .ok (some plan)

/-- Where the site is left, by a return or by a raise. -/
def finalSite {α : Type} : EStateM.Result Raised Site α → Site
  | .ok _ site => site
  | .error _ site => site

theorem Ends.site {α : Type} {body : SiteM α} {site : Site} {post : Site → Prop}
    (ends : Ends body site (fun _ site' => post site') fun _ site' => post site') :
    post (finalSite (body site)) := by
  cases ran : body site with
  | ok a site' => exact (ends_of_ok ran).mp ends
  | error e site' => exact (ends_of_error ran).mp ends

section

variable {service : DeploymentService} {layout : CronLayout} {faults : ApplyFaults}
  {history later : History} {fuel : Nat} {reviewed : Option DeploymentPlan} {site : Site}
  {plan : DeploymentPlan} {pairs : List (Task × TaskRevision)}

theorem apply_carriesOut (applies : service.Applies layout history fuel reviewed site plan)
    (listed : publishedPairs later fuel 0 0 = some pairs) :
    service.apply layout faults history later fuel reviewed site =
      (some <$> carryOut layout faults plan pairs) site := by
  unfold DeploymentService.apply
  rw [listed]
  rcases applies with rfl | ⟨rfl, planned⟩
  · rfl
  · rw [bind_run]
    change (answer _ >>= _ : SiteM _) site = _
    rw [planned]
    rfl

theorem apply_stage (applies : service.Applies layout history fuel reviewed site plan)
    (listed : publishedPairs later fuel 0 0 = some pairs) :
    Stage layout faults plan pairs site
      (finalSite (service.apply layout faults history later fuel reviewed site)) := by
  rw [apply_carriesOut applies listed, map_eq_pure_bind]
  refine Ends.site (Ends.bind ((carryOut_ends layout faults plan pairs site).mono ?_ ?_))
  · rintro result site' ⟨stage, _⟩
    exact ends_pure stage
  · exact fun _ _ stage => stage

/-- Wherever an apply ends: the host has only changed with the manifests of all pairs in place but
for those of removals, and a manifest has only gone as a removal of a plan that was applied. -/
theorem manifests_first (service : DeploymentService) (layout : CronLayout) (faults : ApplyFaults)
    (history later : History) (fuel : Nat) (reviewed : Option DeploymentPlan) (site : Site)
    (plan : DeploymentPlan) (pairs : List (Task × TaskRevision))
    (applies : service.Applies layout history fuel reviewed site plan)
    (listed : publishedPairs later fuel 0 0 = some pairs) :
    ∀ site', site' = finalSite (service.apply layout faults history later fuel reviewed site) →
      (site'.host ≠ site.host → ∀ pair ∈ pairs, pair.1.slug.value ∉ removedSlugs plan →
        InstalledFrom pairs site'.manifests pair.1.slug.value) ∧
      (∀ slug, site.manifests slug ≠ none → site'.manifests slug = none →
        slug ∈ removedSlugs plan ∧ ∃ result session, result.succeeded = true ∧
          Cron.apply faults.stores layout plan (.start site.host) = .ok result session) ∧
      ∀ slug manifest, site'.manifests slug = some manifest →
        site.manifests slug = some manifest ∨ InstalledFrom pairs site'.manifests slug := by
  rintro site' rfl
  have old : ∀ {manifests : Text → Option InstalledRevision}, Grown pairs site.manifests manifests →
      ∀ slug, site.manifests slug ≠ none → manifests slug ≠ none := by
    intro manifests grown slug present
    rcases grown slug with same | ⟨_, _, _, manifest, _, there⟩
    · rwa [same]
    · rw [there]
      exact Option.some_ne_none manifest
  cases (apply_stage applies listed : Stage layout faults plan pairs site _) with
  | installing host grown =>
      refine ⟨fun changed => absurd host changed,
        fun slug present gone => absurd gone (old grown slug present), ?_⟩
      intro slug manifest there
      exact (grown slug).imp (fun same => same.symm.trans there) id
  | installed grown all =>
      refine ⟨fun _ pair member _ => all pair member,
        fun slug present gone => absurd gone (old grown slug present), ?_⟩
      intro slug manifest there
      exact (grown slug).imp (fun same => same.symm.trans there) id
  | @removing middle result session applied succeeded host grown all shrunk =>
      refine ⟨fun _ pair member kept => ?_, fun slug present gone => ?_,
        fun slug manifest there => ?_⟩
      · rcases shrunk pair.1.slug.value with same | ⟨removed, _⟩
        · obtain ⟨other, inPairs, named, own, made, placed⟩ := all pair member
          exact ⟨other, inPairs, named, own, made, same.trans placed⟩
        · exact absurd removed kept
      · rcases shrunk slug with same | ⟨removed, _⟩
        · exact absurd (same.symm.trans gone) (old grown slug present)
        · exact ⟨removed, result, session, succeeded, applied⟩
      · rcases shrunk slug with same | ⟨_, gone⟩
        · rcases grown slug with before | ⟨pair, member, named, own, made, placed⟩
          · exact .inl (before.symm.trans (same.symm.trans there))
          · exact .inr ⟨pair, member, named, own, made, same.trans placed⟩
        · rw [gone] at there
          cases there

end

/-! ## Fresh applies of a quiet estate -/

/-- The published pair of a task. -/
def pairOf (state : CommittedState) (task : Task) : Option (Task × TaskRevision) :=
  (publishedRevision state task).map fun revision => (task, revision)

/-- The artefact's manifest is installed: its task, digest, deployment and schedule. -/
def Backed (site : Site) (artefact : DesiredArtefact) : Prop :=
  ∃ manifest, site.manifests artefact.slug = some manifest ∧
    manifest.taskId = artefact.taskId ∧ manifest.contentDigest.value = artefact.contentDigest ∧
    manifest.deployment = artefact.deployment ∧ manifest.activationSchedule = artefact.schedule

section

variable {service : DeploymentService} {state : CommittedState}

theorem pairsOf_steadily (page : List Task) (statement : Nat) :
    (pairsOf (steadily state) page statement).1 = page.filterMap (pairOf state) := by
  induction page generalizing statement with
  | nil => rfl
  | cons task rest ih =>
      unfold pairsOf
      rw [List.filterMap_cons]
      unfold pairOf publishedRevision
      cases active : task.activeRevisionId with
      | none => exact ih statement
      | some revisionId =>
          have here : (steadily state).at_ statement = state := rfl
          rw [here]
          dsimp only [Option.bind_some]
          cases stored : state.revisions revisionId with
          | none => exact ih (statement + 1)
          | some revision =>
              dsimp only [Option.map_some]
              rw [ih (statement + 1)]
              rfl

theorem publishedPairs_steadily (fuel : Nat) :
    ∀ offset statement, (remaining state offset).length < fuel →
      publishedPairs (steadily state) fuel offset statement =
        some ((remaining state offset).filterMap (pairOf state)) := by
  induction fuel with
  | zero =>
      intro offset statement enough
      omega
  | succ fuel ih =>
      intro offset statement enough
      have split_ := @remaining_split state offset
      have here : (steadily state).at_ statement = state := rfl
      rw [publishedPairs, here]
      cases page : listTasks state [.active] pageSize offset with
      | nil =>
          rw [page_remaining, List.take_eq_nil_iff] at page
          rw [page.resolve_left (by decide)]
          rfl
      | cons task rest =>
          rw [page] at split_
          have size := congrArg List.length split_
          have some_ : 0 < (task :: rest).length := Nat.succ_pos _
          rw [List.length_append] at size
          dsimp only
          rw [ih _ _ (by omega), Option.map_some, pairsOf_steadily, split_, List.filterMap_append]

theorem mem_pairs {tasks : List Task} {pair : Task × TaskRevision} :
    pair ∈ tasks.filterMap (pairOf state) ↔
      pair.1 ∈ tasks ∧ publishedRevision state pair.1 = some pair.2 := by
  rw [List.mem_filterMap]
  constructor
  · rintro ⟨task, listed, made⟩
    obtain ⟨revision, stored, rfl⟩ := Option.map_eq_some_iff.mp made
    exact ⟨listed, stored⟩
  · rintro ⟨listed, stored⟩
    exact ⟨pair.1, listed, by rw [pairOf, stored]; rfl⟩

/-- Tasks under slugs that differ install each its own manifest. -/
theorem installedFrom_own (distinct : (state.tasks.map fun task => task.slug.value).Nodup)
    {pairs : List (Task × TaskRevision)}
    (listed : ∀ pair ∈ pairs, pair.1 ∈ state.tasks ∧ publishedRevision state pair.1 = some pair.2)
    {manifests : Text → Option InstalledRevision} {pair : Task × TaskRevision}
    (member : pair ∈ pairs) (installed : InstalledFrom pairs manifests pair.1.slug.value) :
    ∃ manifest, InstalledRevision.install pair.1 pair.2 = .ok manifest ∧
      manifests pair.1.slug.value = some manifest := by
  obtain ⟨other, inPairs, named, manifest, made, there⟩ := installed
  have same := List.inj_on_of_nodup_map distinct (listed other inPairs).1 (listed pair member).1 named
  have revision := (listed other inPairs).2
  rw [same, (listed pair member).2] at revision
  rw [same, ← Option.some.inj revision] at made
  exact ⟨manifest, made, there⟩

theorem backed_of_installed {task : Task} {revision : TaskRevision} {artefact : DesiredArtefact}
    {manifest : InstalledRevision} {site : Site}
    (built : service.artefactFrom task revision = .ok artefact)
    (made : InstalledRevision.install task revision = .ok manifest)
    (there : site.manifests task.slug.value = some manifest) : Backed site artefact := by
  obtain ⟨_, _, returned⟩ := except_bind_eq_ok.mp built
  obtain rfl := Except.ok.inj returned
  unfold InstalledRevision.install at made
  split at made
  · cases made
  · next digest digested =>
      cases made
      refine ⟨_, there, rfl, ?_, rfl, rfl⟩
      simp [digested]

/-- What a fresh plan collected, and what it planned. -/
theorem fresh_plan {layout : CronLayout} {fuel : Nat} {host : Host} {plan : DeploymentPlan}
    (planned : service.plan (steadily state) fuel layout host = .ok (some plan)) :
    ∃ artefacts last, service.desiredArtefacts (steadily state) fuel =
      .ok (some (artefacts, last)) ∧ Cron.plan layout host artefacts = .ok plan := by
  obtain ⟨collected, found, rest⟩ := except_bind_eq_ok.mp planned
  cases collected with
  | none => cases rest
  | some collected =>
      refine ⟨collected.1, collected.2, found, ?_⟩
      cases made : Cron.plan layout host collected.1 with
      | error problem =>
          change some <$> Cron.plan layout host collected.1 = _ at rest
          rw [made] at rest
          cases rest
      | ok other =>
          change some <$> Cron.plan layout host collected.1 = _ at rest
          rw [made] at rest
          cases rest
          rfl

theorem writes_of_planned {layout : CronLayout} {host : Host} {artefacts : List DesiredArtefact}
    {entries : List PlanEntry} (planned : List.Forall₂ (Cron.PlannedFor layout host) artefacts entries)
    {entry : PlanEntry} (member : entry ∈ entries) : entry.change ≠ .remove := by
  induction planned with
  | nil => cases member
  | cons first _ ih =>
      rcases List.mem_cons.mp member with rfl | later
      · exact first.writes
      · exact ih later

/-- The plan removes what is retired on the host. -/
theorem removedSlugs_plan {layout : CronLayout} {host : Host} {artefacts : List DesiredArtefact}
    {plan : DeploymentPlan} (planned : Cron.plan layout host artefacts = .ok plan) (slug : Text) :
    slug ∈ removedSlugs plan ↔
      Retired layout host (artefacts.map DesiredArtefact.slug) slug := by
  obtain ⟨entries, removals, rfl, plannedFor, removed⟩ := Cron.plan_ok planned
  have kept : entries.filter (fun entry => decide (entry.change = .remove)) = [] := by
    rw [List.filter_eq_nil_iff]
    intro entry member removal
    exact writes_of_planned plannedFor member (of_decide_eq_true removal)
  have gone : removals.filter (fun entry => decide (entry.change = .remove)) = removals :=
    List.filter_eq_self.mpr fun entry member => decide_eq_true (removed.remove entry member)
  rw [removedSlugs, List.filter_append, kept, gone, List.nil_append]
  exact removed.named slug

theorem contribution_slugs (tasks : List Task) :
    ((tasks.filterMap (contribution service state)).map DesiredArtefact.slug).Sublist
      (tasks.map fun task => task.slug.value) := by
  induction tasks with
  | nil => exact List.Sublist.refl _
  | cons task rest ih =>
      rw [List.filterMap_cons, List.map_cons]
      cases made : contribution service state task with
      | none => exact ih.cons _
      | some artefact =>
          obtain ⟨revision, _, built⟩ := contribution_built made
          rw [List.map_cons, (artefactFrom_built built).slug]
          exact ih.cons_cons _

theorem collected_slugs (distinct : (state.tasks.map fun task => task.slug.value).Nodup)
    {fuel last : Nat} {artefacts : List DesiredArtefact}
    (collected : service.desiredArtefacts (steadily state) fuel = .ok (some (artefacts, last))) :
    (artefacts.map DesiredArtefact.slug).Nodup := by
  have sorted : (remaining state 0).Perm
      (state.tasks.filter fun task => task.lifecycleState ∈ [TaskLifecycleState.active]) := by
    unfold remaining selected orderedById
    rw [List.drop_zero, if_neg (List.cons_ne_nil _ _)]
    exact List.perm_insertionSort _ _
  rw [collect_contributions fuel collected]
  refine List.Nodup.sublist (contribution_slugs _) ?_
  rw [(sorted.map fun task => task.slug.value).nodup_iff]
  exact distinct.sublist (List.filter_sublist.map _)

/-- A success of a fresh apply: the artefacts and the pairs of the estate, and what is left. -/
theorem fresh_success (distinct : (state.tasks.map fun task => task.slug.value).Nodup)
    {layout : CronLayout} {faults : ApplyFaults} {fuel : Nat} (enough : state.tasks.length < fuel)
    {site site' : Site} {result : ApplyResult}
    (ran : service.apply layout faults (steadily state) (steadily state) fuel none site =
      .ok (some result) site')
    (succeeded : result.succeeded = true) :
    ∃ artefacts last plan session middle,
      service.desiredArtefacts (steadily state) fuel = .ok (some (artefacts, last)) ∧
        Cron.plan layout site.host artefacts = .ok plan ∧
        Cron.apply faults.stores layout plan (.start site.host) = .ok result session ∧
        site'.host = session.host ∧
        site'.manifests = without (removedSlugs plan) middle ∧
        (∀ slug ∉ artefacts.map DesiredArtefact.slug, middle slug = site.manifests slug) ∧
        ∀ artefact ∈ artefacts, Backed ⟨site'.host, middle⟩ artefact := by
  obtain ⟨fits⟩ : Nonempty ((remaining state 0).length < fuel) := by
    refine ⟨lt_of_le_of_lt ?_ enough⟩
    unfold remaining selected orderedById
    rw [List.drop_zero, List.length_insertionSort, if_neg (List.cons_ne_nil _ _)]
    exact List.length_filter_le _ _
  have listed := publishedPairs_steadily fuel 0 0 fits
  cases planned : service.plan (steadily state) fuel layout site.host with
  | error problem =>
      unfold DeploymentService.apply at ran
      obtain ⟨_, _, read, rest⟩ := bind_eq_ok.mp ran
      cases read
      obtain ⟨_, _, made, _⟩ := bind_eq_ok.mp rest
      rw [planned] at made
      cases made
  | ok planning =>
      cases planning with
      | none =>
          unfold DeploymentService.apply at ran
          obtain ⟨_, _, read, rest⟩ := bind_eq_ok.mp ran
          cases read
          obtain ⟨_, _, made, later⟩ := bind_eq_ok.mp rest
          rw [planned] at made
          cases made
          cases later
      | some plan =>
          obtain ⟨artefacts, last, collected, made⟩ := fresh_plan planned
          rw [apply_carriesOut (.inr ⟨rfl, planned⟩) listed, map_eq_pure_bind] at ran
          obtain ⟨other, _, carried, returned⟩ := bind_eq_ok.mp ran
          cases returned
          obtain ⟨_, _, success⟩ := (ends_of_ok carried).mp (carryOut_ends layout faults plan _ site)
          obtain ⟨session, middle, applied, host, grown, all, manifests⟩ := success succeeded
          have stands : ∀ pair ∈ (remaining state 0).filterMap (pairOf state),
              (pair.1 ∈ state.tasks ∧ pair.1.lifecycleState = .active) ∧
                publishedRevision state pair.1 = some pair.2 := by
            intro pair member
            obtain ⟨inOrder, stored⟩ := mem_pairs.mp member
            exact ⟨mem_selected_active.mp inOrder, stored⟩
          have contributions := collect_contributions fuel collected
          refine ⟨artefacts, last, plan, session, middle, collected, made, applied, host, manifests,
            fun slug foreign => ?_, fun artefact member => ?_⟩
          · rcases grown slug with same | ⟨pair, member, rfl, _⟩
            · exact same
            · obtain ⟨inOrder, stored⟩ := mem_pairs.mp member
              have fit := collect_fits fuel collected pair.1 inOrder pair.2 stored
              obtain ⟨artefact, built⟩ : ∃ artefact, service.artefactFrom pair.1 pair.2 = .ok artefact :=
                artefactFrom_isOk_iff.mpr fit
              refine absurd (List.mem_map.mpr ⟨artefact, ?_, (artefactFrom_built built).slug⟩) foreign
              rw [contributions, List.mem_filterMap]
              exact ⟨pair.1, inOrder, by simp [contribution, stored, built, Except.toOption]⟩
          · rw [contributions, List.mem_filterMap] at member
            obtain ⟨task, inOrder, contributed⟩ := member
            obtain ⟨revision, stored, built⟩ := contribution_built contributed
            have pair : (task, revision) ∈ (remaining state 0).filterMap (pairOf state) :=
              mem_pairs.mpr ⟨inOrder, stored⟩
            obtain ⟨manifest, installed, there⟩ := installedFrom_own distinct
              (fun pair member => ⟨(stands pair member).1.1, (stands pair member).2⟩) pair
              (all _ pair)
            exact backed_of_installed built installed there

/-- After a fresh apply that succeeds, each artefact has its manifest exactly where no entry that is
retired from the host bears the slug of one; the manifests of retired slugs are gone, and all
others are as before. -/
theorem apply_backed_iff (distinct : (state.tasks.map fun task => task.slug.value).Nodup)
    {layout : CronLayout} {faults : ApplyFaults} {fuel : Nat} (enough : state.tasks.length < fuel)
    {site site' : Site} {result : ApplyResult}
    (ran : service.apply layout faults (steadily state) (steadily state) fuel none site =
      .ok (some result) site')
    (succeeded : result.succeeded = true) :
    ∃ artefacts last, service.desiredArtefacts (steadily state) fuel =
        .ok (some (artefacts, last)) ∧
      ((∀ artefact ∈ artefacts, Backed site' artefact) ↔ ∀ artefact ∈ artefacts,
        ¬ Retired layout site.host (artefacts.map DesiredArtefact.slug) artefact.slug) ∧
      ∀ slug, (Retired layout site.host (artefacts.map DesiredArtefact.slug) slug →
          site'.manifests slug = none) ∧
        (slug ∉ artefacts.map DesiredArtefact.slug →
          ¬ Retired layout site.host (artefacts.map DesiredArtefact.slug) slug →
            site'.manifests slug = site.manifests slug) := by
  obtain ⟨artefacts, last, plan, session, middle, collected, planned, _, _, manifests, others,
    backed⟩ := fresh_success distinct enough ran succeeded
  have gone := removedSlugs_plan planned
  refine ⟨artefacts, last, collected, ⟨fun all artefact member retired => ?_,
    fun kept artefact member => ?_⟩, fun slug => ⟨fun retired => ?_, fun foreign kept => ?_⟩⟩
  · obtain ⟨manifest, there, _⟩ := all artefact member
    rw [manifests, without_mem ((gone _).mpr retired)] at there
    cases there
  · obtain ⟨manifest, there, agrees⟩ := backed artefact member
    refine ⟨manifest, ?_, agrees⟩
    rw [manifests, without_not_mem fun removed => kept artefact member ((gone _).mp removed)]
    exact there
  · rw [manifests, without_mem ((gone _).mpr retired)]
  · rw [manifests, without_not_mem fun removed => kept ((gone _).mp removed), others slug foreign]

end

/-! ## A first apply -/

namespace Estate

def emptySite : Site := ⟨Cron.bareHost, fun _ => none⟩

def undisturbed : ApplyFaults := ⟨Cron.quietStores, fun _ => .none, fun _ => .none⟩

def firstApply : EStateM.Result Raised Site (Option ApplyResult) :=
  commands.apply everyStore undisturbed (steadily steady) (steadily steady) 2 none emptySite

def succeeds : EStateM.Result Raised Site (Option ApplyResult) → Bool
  | .ok (some result) _ => result.succeeded
  | _ => false

theorem firstApply_succeeds : succeeds firstApply = true := by decide +kernel

theorem firstApply_ran : ∃ result site', firstApply = .ok (some result) site' ∧
    result.succeeded = true := by
  have done := firstApply_succeeds
  unfold succeeds at done
  split at done
  · next result site' ran => exact ⟨result, site', ran, done⟩
  · cases done

theorem opening_bounded : 0 < 201 := by decide

def openingTask : Task := task ⟨0, opening_bounded⟩

/-- The artefact of the only task. -/
def artefact : DesiredArtefact where
  taskId := openingTask.taskId
  slug := job 0
  deployment := .default
  command := "run ".toList ++ job 0
  contentDigest := (revision.contentDigest.map ContentDigest.value).getD "unpublished".toList
  schedule := some "0 * * * *".toList
  description :=
    if openingTask.description = [] then openingTask.name else openingTask.description

theorem collected : commands.desiredArtefacts (steadily steady) 2 = .ok (some ([artefact], 2)) := rfl

theorem slugs_distinct : (steady.tasks.map fun task => task.slug.value).Nodup := by decide

theorem artefact_safe : artefact.Safe := by
  have slug : LinePattern.Token artefact.slug := by decide +kernel
  have digest : LinePattern.Token artefact.contentDigest := by decide +kernel
  have entry : Cron.crontabEntry artefact = .ok "0 * * * * run job-000".toList := by
    decide +kernel
  refine ⟨⟨slug, digest⟩, ?_, ?_, ?_⟩
  · decide +kernel
  · intro line rendered
    rw [entry] at rendered
    cases rendered
    decide +kernel
  · intro strategy
    cases strategy

theorem bareHost_undisturbed : Cron.Undisturbed everyStore Cron.bareHost [artefact] := by
  constructor
  · intro c _ found read other _
    obtain rfl : [] = found := Except.ok.inj (show Except.ok [] = _ from read)
    exact Nat.zero_le _
  · intro c _ found read other _
    obtain rfl : [] = found := Except.ok.inj (show Except.ok [] = _ from read)
    exact Nat.zero_le _
  · intro d _ name _ region rest read
    obtain same : [] = region :: rest := Except.ok.inj (show Except.ok [] = _ from read)
    cases same
  · exact fun d _ other _ _ => rfl

theorem firstPlan_made : ∃ plan,
    commands.plan (steadily steady) 2 everyStore Cron.bareHost = .ok (some plan) := by
  have made : (commands.plan (steadily steady) 2 everyStore Cron.bareHost).toOption.join.isSome =
      true := by decide +kernel
  cases planned : commands.plan (steadily steady) 2 everyStore Cron.bareHost with
  | error problem =>
      rw [planned] at made
      cases made
  | ok plan =>
      cases plan with
      | none =>
          rw [planned] at made
          cases made
      | some plan => exact ⟨plan, rfl⟩

end Estate

theorem manifests_first_steady : ∃ plan pairs site', site' = finalSite Estate.firstApply ∧
    (site'.host ≠ Cron.bareHost → ∀ pair ∈ pairs, pair.1.slug.value ∉ removedSlugs plan →
      InstalledFrom pairs site'.manifests pair.1.slug.value) := by
  obtain ⟨plan, planned⟩ := Estate.firstPlan_made
  have listed : publishedPairs (steadily Estate.steady) 2 0 0 = some _ :=
    publishedPairs_steadily 2 0 0 (by decide +kernel)
  exact ⟨plan, _, _, rfl, (manifests_first Estate.commands Estate.everyStore Estate.undisturbed
    (steadily Estate.steady) (steadily Estate.steady) 2 none Estate.emptySite plan _
    (.inr ⟨rfl, planned⟩) listed _ rfl).1⟩

theorem apply_backed_iff_steady : ∃ site' artefacts last,
    Estate.commands.desiredArtefacts (steadily Estate.steady) 2 = .ok (some (artefacts, last)) ∧
      ((∀ artefact ∈ artefacts, Backed site' artefact) ↔ ∀ artefact ∈ artefacts,
        ¬ Retired Estate.everyStore Cron.bareHost (artefacts.map DesiredArtefact.slug)
          artefact.slug) := by
  obtain ⟨result, site', ran, succeeded⟩ := Estate.firstApply_ran
  obtain ⟨artefacts, last, collected, backed, _⟩ :=
    apply_backed_iff Estate.slugs_distinct (by decide) ran succeeded
  exact ⟨site', artefacts, last, collected, backed⟩

end TaskControl.Deployment
