import TaskControl.Cron.Verification

/-!
# Plans and reports

A plan and a report read the same stores with code of their own.  Entry for
entry they say the same: what the plan would create, update or remove is what the
report finds missing, modified or unexpected.
-/

set_option autoImplicit false

namespace TaskControl.Cron

open PythonText Effects List

/-- The finding that a planned change corresponds to. -/
def DeploymentChange.drift : DeploymentChange → Option DriftKind
  | .create => some .missing
  | .update => some .modified
  | .remove => some .unexpected
  | .unchanged => none

def entryDetail (slug : Text) : String :=
  s!"A managed entry for '{String.ofList slug}' is deployed here."

def artefactDetail (slug : Text) : String :=
  s!"A managed artefact for '{String.ofList slug}' is deployed here."

/-- The finding is about the slug: it is what the comparison of a desired artefact of that slug
found, or names an entry or a file of that slug that is not desired. -/
def About (layout : CronLayout) (host : Host) (desired : List DesiredArtefact) (entry : PlanEntry)
    (finding : VerificationFinding) : Prop :=
  match entry.change with
  | .remove =>
      (entry.slug ∉ desired.map DesiredArtefact.slug ∧ finding.detail = entryDetail entry.slug) ∨
        finding.detail = artefactDetail entry.slug
  | _ =>
      ∃ artefact ∈ desired, entry.artefact = some artefact ∧ entry.slug = artefact.slug ∧
        verifyOne layout host artefact = .ok [finding]

/-- A planned change and a finding are of one kind, about one task at one target, and of one
slug. -/
structure Agrees (layout : CronLayout) (host : Host) (desired : List DesiredArtefact)
    (entry : PlanEntry) (finding : VerificationFinding) : Prop where
  kind : entry.change.drift = some finding.kind
  taskId : finding.taskId = some entry.taskId
  target : finding.targetDescription = entry.targetDescription
  slug : About layout host desired entry finding

/-- The changes of the entries and the findings agree one to one, in order. -/
def Match (layout : CronLayout) (host : Host) (desired : List DesiredArtefact)
    (entries : List PlanEntry) (findings : List VerificationFinding) : Prop :=
  Forall₂ (Agrees layout host desired) (entriesChanging entries) findings

section Agreement

variable {layout : CronLayout} {host : Host} {desired : List DesiredArtefact}

theorem Match.append {entries entries' : List PlanEntry}
    {findings findings' : List VerificationFinding}
    (first : Match layout host desired entries findings)
    (second : Match layout host desired entries' findings') :
    Match layout host desired (entries ++ entries') (findings ++ findings') := by
  unfold Match entriesChanging
  rw [filter_append]
  exact rel_append first second

theorem Match.flatten {entries : List (List PlanEntry)}
    {findings : List (List VerificationFinding)}
    (each : Forall₂ (Match layout host desired) entries findings) :
    Match layout host desired entries.flatten findings.flatten := by
  induction each with
  | nil => exact .nil
  | cons first _ ih =>
      rw [flatten_cons, flatten_cons]
      exact first.append ih

/-! ## One artefact -/

theorem planOne_unambiguous {artefact : DesiredArtefact} {entry : PlanEntry}
    (planned : planOne layout host artefact = .ok entry) :
    ∃ text current target, renderArtefact artefact = .ok text ∧
      currentContent layout host artefact = .ok current ∧
      describe layout artefact = .ok target := by
  obtain ⟨text, rendered, rest⟩ := except_bind_eq_ok.mp planned
  obtain ⟨current, deployed, rest⟩ := except_bind_eq_ok.mp rest
  obtain ⟨target, described, _⟩ := except_bind_eq_ok.mp rest
  exact ⟨text, current, target, rendered, deployed, described⟩

theorem planOne_verifyOne {artefact : DesiredArtefact} {entry : PlanEntry}
    {findings : List VerificationFinding} (member : artefact ∈ desired)
    (planned : planOne layout host artefact = .ok entry)
    (verified : verifyOne layout host artefact = .ok findings) :
    Match layout host desired [entry] findings := by
  obtain ⟨text, current, target, rendered, deployed, described⟩ := planOne_unambiguous planned
  have same := verified
  unfold planOne at planned
  unfold verifyOne at verified
  rw [rendered, deployed, described] at planned
  rw [rendered, deployed, described] at verified
  simp only [bind, Except.bind, pure, Except.pure] at planned verified
  by_cases absent : current = []
  · rw [if_pos absent] at planned verified
    cases planned
    cases verified
    exact .cons ⟨rfl, rfl, rfl, artefact, member, rfl, rfl, same⟩ .nil
  · rw [if_neg absent] at planned verified
    by_cases alike : current = text
    · rw [if_pos alike] at planned
      rw [if_neg (not_not.mpr alike)] at verified
      cases planned
      cases verified
      exact .nil
    · rw [if_neg alike] at planned
      rw [if_pos alike] at verified
      cases planned
      cases verified
      exact .cons ⟨rfl, rfl, rfl, artefact, member, rfl, rfl, same⟩ .nil

/-! ## What is not desired -/

/-- Where all entries of a list are removals, all of them are changes. -/
theorem Match.of_removals {entries : List PlanEntry} {findings : List VerificationFinding}
    (related : Forall₂ (fun entry finding => entry.change = .remove ∧
      Agrees layout host desired entry finding) entries findings) :
    Match layout host desired entries findings := by
  unfold Match entriesChanging
  induction related with
  | nil => exact .nil
  | @cons entry _ _ _ here _ ih =>
      have changes : entry.change.modifiesTheHost = true := by rw [here.1]; rfl
      rw [filter_cons, if_pos changes]
      exact .cons here.2 ih

theorem crontabRemovals_unexpected {c : CrontabName} {entries : List PlanEntry}
    {findings : List VerificationFinding}
    (planned : crontabRemovals layout host (desired.map DesiredArtefact.slug) c = .ok entries)
    (verified : crontabUnexpected layout host (desired.map DesiredArtefact.slug) c = .ok findings) :
    Match layout host desired entries findings := by
  obtain ⟨managed, read, planned⟩ := except_bind_eq_ok.mp planned
  obtain ⟨held, readAgain, verified⟩ := except_bind_eq_ok.mp verified
  rw [read] at readAgain
  obtain rfl : managed = held := Except.ok.inj readAgain
  apply Match.of_removals
  apply mapM_related _ planned verified
  intro item member entry finding removed found
  have foreign : item.slug ∉ desired.map DesiredArtefact.slug := by
    simpa using (mem_filter.mp member).2
  obtain ⟨taskId, parsed, returned⟩ := except_bind_eq_ok.mp removed
  obtain ⟨taskId', parsedAgain, returnedFinding⟩ := except_bind_eq_ok.mp found
  rw [parsed] at parsedAgain
  cases parsedAgain
  cases returned
  cases returnedFinding
  exact ⟨rfl, rfl, rfl, rfl, Or.inl ⟨foreign, rfl⟩⟩

theorem fileRemoval_unexpected {d : DirectoryName} {name : Text} {entries : List PlanEntry}
    {findings : List VerificationFinding}
    (planned : fileRemoval layout host d name = .ok entries)
    (verified : fileUnexpected layout host d name = .ok findings) :
    Match layout host desired entries findings := by
  obtain ⟨content, read, planned⟩ := except_bind_eq_ok.mp planned
  obtain ⟨regions, scanned, planned⟩ := except_bind_eq_ok.mp planned
  unfold fileUnexpected at verified
  rw [read] at verified
  simp only [bind, Except.bind] at verified
  rw [scanned] at verified
  cases regions with
  | nil =>
      cases planned
      cases verified
      exact .nil
  | cons region _ =>
      obtain ⟨taskId, parsed, returned⟩ := except_bind_eq_ok.mp planned
      simp only [parsed] at verified
      cases returned
      cases verified
      exact .cons ⟨rfl, rfl, rfl, Or.inr rfl⟩ .nil

theorem directoryRemovals_unexpected {d : DirectoryName} {entries : List PlanEntry}
    {findings : List VerificationFinding}
    (planned : directoryRemovals layout host (desired.map DesiredArtefact.slug) d = .ok entries)
    (verified : directoryUnexpected layout host (desired.map DesiredArtefact.slug) d =
      .ok findings) :
    Match layout host desired entries findings := by
  obtain ⟨planLists, collected, rfl⟩ := except_map_eq_ok.mp planned
  obtain ⟨findingLists, collected', rfl⟩ := except_map_eq_ok.mp verified
  apply Match.flatten
  apply mapM_related _ collected collected'
  intro name _ removals unexpected planned verified
  exact fileRemoval_unexpected planned verified

theorem planRemovals_unexpected {entries : List PlanEntry} {findings : List VerificationFinding}
    (planned : planRemovals layout host (desired.map DesiredArtefact.slug) = .ok entries)
    (verified : findUnexpected layout host (desired.map DesiredArtefact.slug) = .ok findings) :
    Match layout host desired entries findings := by
  obtain ⟨fromCrontabs, crontabs, planned⟩ := except_bind_eq_ok.mp planned
  obtain ⟨fromDirectories, directories, returned⟩ := except_bind_eq_ok.mp planned
  obtain ⟨fromCrontabs', crontabs', verified⟩ := except_bind_eq_ok.mp verified
  obtain ⟨fromDirectories', directories', returned'⟩ := except_bind_eq_ok.mp verified
  cases returned
  cases returned'
  apply Match.append
  · apply Match.flatten
    apply mapM_related _ crontabs crontabs'
    intro c _ removals unexpected planned verified
    exact crontabRemovals_unexpected planned verified
  · apply Match.flatten
    apply mapM_related _ directories directories'
    intro d _ removals unexpected planned verified
    exact directoryRemovals_unexpected planned verified

theorem planned_compared {entries : List PlanEntry} {findings : List (List VerificationFinding)}
    (planned : desired.mapM (planOne layout host) = .ok entries)
    (verified : desired.mapM (verifyOne layout host) = .ok findings) :
    Match layout host desired entries findings.flatten := by
  have each : Forall₂ (fun entry found => Match layout host desired [entry] found)
      entries findings := by
    apply mapM_related _ planned verified
    intro artefact member entry found planned verified
    exact planOne_verifyOne member planned verified
  have singles : (entries.map fun entry => [entry]).flatten = entries := by
    rw [← flatMap_def, flatMap_singleton' entries]
  rw [← singles]
  apply Match.flatten
  exact forall₂_map_left_iff.mpr each

/-- Where both return, the changes of a plan and the findings of a report are the same, one to one
and in order, and a plan changes nothing exactly where the report matches. -/
theorem plan_verify_agree {deployment : DeploymentPlan} {report : VerificationReport}
    (planned : plan layout host desired = .ok deployment)
    (verified : verify layout host desired = .ok report) :
    Forall₂ (Agrees layout host desired) (entriesChanging deployment) report.findings ∧
      (entriesChanging deployment = [] ↔ report.matching = true) := by
  obtain ⟨entries, compared, planned⟩ := except_bind_eq_ok.mp planned
  obtain ⟨removals, swept, returned⟩ := except_bind_eq_ok.mp planned
  obtain ⟨findings, compared', verified⟩ := except_bind_eq_ok.mp verified
  obtain ⟨unexpected, swept', returned'⟩ := except_bind_eq_ok.mp verified
  cases returned
  cases returned'
  have agree : Match layout host desired (entries ++ removals) (findings.flatten ++ unexpected) :=
    (planned_compared compared compared').append (planRemovals_unexpected swept swept')
  refine ⟨agree, ?_⟩
  have lengths := agree.length_eq
  rw [VerificationReport.matching, List.isEmpty_iff, ← length_eq_zero_iff, lengths, length_eq_zero_iff]

end Agreement

/-- The kinds of what a plan would change and of what a report finds. -/
def changesAndDrift (host : Host) (desired : List DesiredArtefact) :
    Option (List DeploymentChange × List DriftKind) := do
  let deployment ← (plan userLayout host desired).toOption
  let report ← (verify userLayout host desired).toOption
  return ((entriesChanging deployment).map PlanEntry.change,
    report.findings.map VerificationFinding.kind)

theorem plan_verify_agree_moved :
    ∃ deployment report,
      plan userLayout regionHost [nightlyBackup .singleBlock] = .ok deployment ∧
        verify userLayout regionHost [nightlyBackup .singleBlock] = .ok report ∧
          Forall₂ (Agrees userLayout regionHost [nightlyBackup .singleBlock])
              (entriesChanging deployment) report.findings ∧
            (entriesChanging deployment = [] ↔ report.matching = true) := by
  have found : changesAndDrift regionHost [nightlyBackup .singleBlock] =
      some ([.create], [.missing]) := by decide +kernel
  unfold changesAndDrift at found
  cases planned : plan userLayout regionHost [nightlyBackup .singleBlock] with
  | error problem =>
      rw [planned] at found
      cases found
  | ok deployment =>
      cases verified : verify userLayout regionHost [nightlyBackup .singleBlock] with
      | error problem =>
          rw [planned, verified] at found
          cases found
      | ok report => exact ⟨deployment, report, rfl, rfl, plan_verify_agree planned verified⟩

end TaskControl.Cron
