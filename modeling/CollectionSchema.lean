import CollectionSchema.Files.FileSystem
import CollectionSchema.Main
import CollectionSchema.Proofs.NodeShape
import CollectionSchema.Proofs.KeywordResolution
import CollectionSchema.Proofs.NestingRelation
import CollectionSchema.Proofs.NodeDepth
import CollectionSchema.Proofs.Emission
import CollectionSchema.Proofs.RootAccounting
import CollectionSchema.Proofs.BuildOrder
import CollectionSchema.Proofs.DocumentRoundTrip
import CollectionSchema.Proofs.PlainText
import CollectionSchema.Proofs.TableReading
import CollectionSchema.Proofs.BuildFaults
import CollectionSchema.Proofs.DeclaredReferences
import CollectionSchema.Proofs.DescriptorShape
import CollectionSchema.Proofs.Locality
import CollectionSchema.Proofs.NestingAgreement
import CollectionSchema.Proofs.DeclarationOrder
import CollectionSchema.Proofs.PendingRecords
import CollectionSchema.Proofs.EmittedDocuments
import CollectionSchema.Proofs.CycleRecords
import CollectionSchema.Proofs.DescriptorRoundTrip
import CollectionSchema.Proofs.Locations
import CollectionSchema.Proofs.FileRuns
import CollectionSchema.Proofs.AtomicWrites
import CollectionSchema.Proofs.JournalNotes
import CollectionSchema.Proofs.WrittenFiles
import CollectionSchema.Proofs.WrittenArtifacts
import CollectionSchema.Proofs.DescriptorFiles
import CollectionSchema.Proofs.Generation
import CollectionSchema.Proofs.PruningRounds
import CollectionSchema.Proofs.BuildTrails
import CollectionSchema.Proofs.TypeNames
import CollectionSchema.Proofs.DescriptorGraph
import CollectionSchema.Proofs.DeclarationFaults
import CollectionSchema.Proofs.RegistryContents
import CollectionSchema.Proofs.Rounding
import CollectionSchema.Proofs.BoundOrder
import CollectionSchema.Proofs.NodeParts
import CollectionSchema.Proofs.ReadNodes
import CollectionSchema.Proofs.InterruptedWrites
import CollectionSchema.Proofs.DocumentPlaces
import CollectionSchema.Proofs.OutlineTokens
import CollectionSchema.Proofs.JoinedTexts
import CollectionSchema.Proofs.ValueTexts
import CollectionSchema.Proofs.AcceptedTexts
import CollectionSchema.Proofs.NodeFrames
import CollectionSchema.Proofs.MemberOrder
import CollectionSchema.Proofs.CallDepth
import CollectionSchema.Proofs.RegistryTexts
import CollectionSchema.Proofs.NodeTexts
import CollectionSchema.Proofs.RawLiterals
import CollectionSchema.Proofs.PropertyRuns
import CollectionSchema.Proofs.RawDelimiters
import CollectionSchema.Proofs.ExactCounters
