import ClassSketch.Main
import ClassSketch.Proofs.CodeUnits
import ClassSketch.Proofs.DecodingFaults
import ClassSketch.Proofs.DescriptorGrammar
import ClassSketch.Proofs.Parameters
import ClassSketch.Proofs.Layout
import ClassSketch.Proofs.ConstantPool
import ClassSketch.Proofs.Body
import ClassSketch.Proofs.LayoutReading
import ClassSketch.Proofs.Steady
import ClassSketch.Proofs.Truncation
import ClassSketch.Proofs.Encoding
import ClassSketch.Proofs.Margins
import ClassSketch.Proofs.IndentedText
import ClassSketch.Proofs.ClassText
import ClassSketch.Proofs.Printable
import ClassSketch.Proofs.DescriptorFaults
import ClassSketch.Proofs.DescriptorCompletion
import ClassSketch.Proofs.Windows
import ClassSketch.Proofs.Batch
import ClassSketch.Proofs.Agreement
import ClassSketch.Proofs.OutputPaths
import ClassSketch.Proofs.Confinement
import ClassSketch.Proofs.Turns
import ClassSketch.Proofs.FoundFiles
import ClassSketch.Proofs.OutputFrame
import ClassSketch.Proofs.PrintFaults
import ClassSketch.Proofs.ClassDeclarations
import ClassSketch.Proofs.MethodDeclarations
import ClassSketch.Proofs.ReadFaults
import ClassSketch.Proofs.Collisions
import ClassSketch.Proofs.FlagOrder
import ClassSketch.Proofs.ShortReads
import ClassSketch.Proofs.SearchOrder
import ClassSketch.Proofs.PoolIndices
import ClassSketch.Proofs.ReadLog
import ClassSketch.Proofs.Boundaries
import ClassSketch.Proofs.Slicing
