import Scaffold.Job.Basic
import Scaffold.Package.Archive.Bytes
import Scaffold.Package.Build
import Scaffold.Project.Build
import Scaffold.Validation.Basic

/-!
# Job/Run — from models to an archive

A job runs through validation, which keeps models with errors from going further, generation,
formatting, if that is asked for, packing and archiving.  Warnings and cycles stay in the report.
-/

namespace Scaffold

open Document

/-- A subject as an entity. -/
def Validation.Subject.read : Validation.Subject Model → Schema.Checked Model
  | .raw v => Model.read v
  | .entity m => .ok m

namespace Job

/-- Where the templates, the formatting and the moment of a run come from. -/
structure Setup where
  templates : Template.Registry
  /-- How files are formatted; none leaves them as they were generated. -/
  format : Option Format.Options
  /-- The moment of the run, in milliseconds. -/
  moment : Nat

/-- What a run produced. -/
structure Outcome where
  project : Project
  package : Package
  format : Options.ArchiveFormat
  archive : ByteArray
  report : Report

/-- Why a run produced nothing. -/
inductive Failure where
  | unfitTarget (u : Validation.UnfitTarget)
  /-- Validation found errors. -/
  | rejected (r : Validation.Result)
  | models (issues : List Schema.Issue)
  | project (f : Project.BuildFailure)
  | package (f : Package.Failure)

/-- What is said about models that validation keeps back. -/
def rejectionMessage (r : Validation.Result) : String := "Model validation failed: " ++ r.summary

def Failure.message : Failure → String
  | unfitTarget u => u.message
  | rejected r => rejectionMessage r
  | models issues => Schema.heading "Model" issues
  | project f => f.message
  | package f => f.message

/-- The entities of subjects; the first that cannot be read is reported alone. -/
def entities : List (Validation.Subject Model) → Schema.Checked (List Model)
  | [] => .ok []
  | s :: rest => s.read.andThen fun m => (entities rest).map (m :: ·)

/-- A step that has succeeded. -/
def done (name detail : String) : Step := ⟨name, true, .zero, detail⟩

def countedFiles (n : Nat) : String := toString n ++ " files"

/-- The steps of a run. -/
def stepsOf (s : Setup) (job : Job) (checked : Validation.Result) (project : Project)
    (package : Package) (archive : String) : List Step :=
  [done "Validate Models" checked.summary,
    done "Generate Code" (countedFiles project.files.length)] ++
    (if s.format.isSome then [done "Format Files" (countedFiles project.files.length)] else []) ++
    [done "Package Project"
        (countedFiles package.files.length ++ ", tier " ++ job.exports.template.shown),
      done "Create Archive" archive]

/-- The project of a job whose models have been validated. -/
def projectOf (s : Setup) (job : Job) : Except Failure Project := do
  let models ← (entities job.models).toExcept.mapError .models
  let project ← (Project.buildNamed s.templates job.generation models job.name s.moment).mapError
    .project
  return match s.format with
  | some o => Project.formatted o project
  | none => project

/-- Runs a job whose models have been validated. -/
def produce (s : Setup) (job : Job) (checked : Validation.Result) : Except Failure Outcome := do
  let project ← projectOf s job
  let package ← (Package.pack job.exports project).mapError .package
  let format := job.exports.format.value
  let archive := Package.Archive.bytes format (s.moment / 1000) (Package.entries package)
  let archiveName := Package.archiveName package.name format
  return {
    project, package, format, archive
    report := {
      success := true
      project := project.name
      models := project.models.length
      endpoints := project.endpoints.length
      files := package.files.length
      lines := package.files.foldl (fun n f => n + f.lineCount) 0
      elapsed := .zero
      archive := archiveName
      archiveSize := archive.size
      steps := stepsOf s job checked project package archiveName
      validation := some checked } }

/-- Runs a job. -/
def run (s : Setup) (job : Job) : Except Failure Outcome := do
  let checked ← (Validation.validateModels job.models).mapError .unfitTarget
  if checked.isValid then produce s job checked else throw (.rejected checked)

end Job

end Scaffold
