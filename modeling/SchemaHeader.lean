import SchemaHeader.FileTree
import SchemaHeader.Json.Reader.UniqueKeys
import SchemaHeader.Main
import SchemaHeader.Proofs.CycleKeys
import SchemaHeader.Proofs.CycleReports
import SchemaHeader.Proofs.DescriptionComments
import SchemaHeader.Proofs.DocumentFields
import SchemaHeader.Proofs.EnumPositions
import SchemaHeader.Proofs.EnumTypeNames
import SchemaHeader.Proofs.FileJobs
import SchemaHeader.Proofs.FullSinks
import SchemaHeader.Proofs.HeaderIdentifiers
import SchemaHeader.Proofs.HeaderText
import SchemaHeader.Proofs.IdentifierPatterns
import SchemaHeader.Proofs.KeyOrder
import SchemaHeader.Proofs.LikeDocuments
import SchemaHeader.Proofs.MemberBlocks
import SchemaHeader.Proofs.MemberPointers
import SchemaHeader.Proofs.NormalNames
import SchemaHeader.Proofs.OtherDefinitions
import SchemaHeader.Proofs.PointerPaths
import SchemaHeader.Proofs.PointerRoundTrips
import SchemaHeader.Proofs.PointerSpellings
import SchemaHeader.Proofs.Provenance
import SchemaHeader.Proofs.RefusedTargets
import SchemaHeader.Proofs.RepeatedCycles
import SchemaHeader.Proofs.ReservedTypeNames
import SchemaHeader.Proofs.RunLog
import SchemaHeader.Proofs.WalkRounds
