import TaskControl.Domain.Revision
import TaskControl.Domain.Task

/-!
# Installed revisions

What a process woken by cron reads instead of the database: the local, immutable
representation of a published revision.
-/

set_option autoImplicit false

namespace TaskControl

open PythonText

structure InstalledRevision where
  taskId : TaskId
  slug : Slug
  revisionId : TaskRevisionId
  revisionNumber : RevisionNumber
  contentDigest : ContentDigest
  action : ActionSpecification
  controls : ExecutionControls
  deployment : DeploymentSpecification
  activationSchedule : Option Text
  description : Text

namespace InstalledRevision

def activationPolicy (installed : InstalledRevision) : ActivationPolicy :=
  installed.controls.activationPolicy

def requiresUnresolvableSecrets (installed : InstalledRevision) : Bool :=
  !installed.action.secretReferences.isEmpty

/-- `install`: a manifest is built from a published revision only. -/
def install (task : Task) (revision : TaskRevision) : Except TaskControlError InstalledRevision :=
  match revision.contentDigest with
  | none =>
      .error (validationError
        ("Only a published revision can be installed. A draft has no content digest, so what " ++
          "was installed could never be verified against what was meant — and its content can " ++
          "still change underneath the deployment."))
  | some contentDigest =>
      .ok {
        taskId := task.taskId
        slug := task.slug
        revisionId := revision.revisionId
        revisionNumber := revision.revisionNumber
        contentDigest
        action := revision.action
        controls := revision.controls
        deployment := revision.deployment
        activationSchedule := revision.activationSchedule.map CronExpression.expression
        description := if task.description = [] then task.name else task.description }

end InstalledRevision

end TaskControl
