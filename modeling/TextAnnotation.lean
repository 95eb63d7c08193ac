import TextAnnotation.Drawing
import TextAnnotation.Pipeline.Parallel
import TextAnnotation.Pipeline.Record
import TextAnnotation.Pipeline.Step
import TextAnnotation.Proofs.Label.Spacing
import TextAnnotation.Proofs.Pattern.Adjoining
import TextAnnotation.Proofs.Pattern.Capturing
import TextAnnotation.Proofs.Pattern.Cursor
import TextAnnotation.Proofs.Pattern.Draining
import TextAnnotation.Proofs.Pattern.Locality
import TextAnnotation.Proofs.Pattern.Picking
import TextAnnotation.Proofs.Pattern.Recurrence
import TextAnnotation.Proofs.Pattern.Succession
import TextAnnotation.Proofs.Pattern.Termination
import TextAnnotation.Proofs.Pattern.Unrolling
import TextAnnotation.Proofs.Pattern.Wording
import TextAnnotation.Proofs.Pattern.Writing
import TextAnnotation.Proofs.Phrase.Loading
import TextAnnotation.Proofs.Phrase.Scanning
import TextAnnotation.Proofs.Pipeline.Concluding
import TextAnnotation.Proofs.Pipeline.Phrasing
import TextAnnotation.Proofs.Pipeline.Sharing
import TextAnnotation.Proofs.Pipeline.Skipping
import TextAnnotation.Proofs.Toml.Tables
import TextAnnotation.Proofs.Settings.Flattening
import TextAnnotation.Proofs.Text.Columns
import TextAnnotation.Proofs.Drawing.Marking
