import Sprocket.Generation
import Sprocket.Report.Line

/-!
# The generation report

What a run wrote, or what it would have written: a dry run shows the artifacts themselves.
-/

namespace Sprocket.Generated

/-- The number of artifacts of a run. -/
def artifactCount (contexts : List Generated) : Nat :=
  (allArtifacts contexts).length

/-- The lines for a written context. -/
def writtenLines (c : Generated) : List ReportLine :=
  .heading (c.name ++ " (" ++ toString c.methods ++ " methods)")
    :: c.artifacts.map fun a => .addedItem (a.path ++ " [" ++ a.backend.name ++ "]")

/-- The lines for an artifact that was not written. -/
def previewLines (a : Artifact) : List ReportLine := [.divider a.path, .preformatted a.content]

/-- The report on a run. -/
def report (contexts : List Generated) (dryRun : Bool) : List ReportLine :=
  if dryRun then
    (allArtifacts contexts).flatMap previewLines
      ++ [.divider "Summary",
        .preformatted (toString (artifactCount contexts) ++ " files would be generated")]
  else
    contexts.flatMap writtenLines
      ++ [.newline, .success ("Generated " ++ toString (artifactCount contexts) ++ " files")]

end Sprocket.Generated
