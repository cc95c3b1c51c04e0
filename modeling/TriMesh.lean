import TriMesh.Resolution
import TriMesh.MeshSpec.Codec
import TriMesh.Store.Config
import TriMesh.Store.Shared
import TriMesh.SubMesh.Single
import TriMesh.Proofs.Buffers
import TriMesh.Proofs.ExtrusionParts
import TriMesh.Proofs.BoxCorners
import TriMesh.Proofs.ClosedExtrusions
import TriMesh.Proofs.TidyPaths
import TriMesh.Proofs.ExtrusionLayout
import TriMesh.Proofs.ExtrusionOutcomes
import TriMesh.Proofs.EdgeNormals
import TriMesh.Proofs.PathOrientations
import TriMesh.Proofs.RescaledExtrusions
import TriMesh.Proofs.ClosedSolids
import TriMesh.Proofs.OutwardSolids
import TriMesh.Proofs.StoreAsMap
import TriMesh.Proofs.NestedLoads
import TriMesh.Proofs.LoneThreads
import TriMesh.Proofs.SingleWriter
import TriMesh.Proofs.Removals
import TriMesh.Proofs.RelistedTriangulations
import TriMesh.Proofs.RoundedTriangulations
import TriMesh.Proofs.ExtrusionFaces
import TriMesh.Proofs.ConvexPaths
import TriMesh.Proofs.CutPaths
import TriMesh.Proofs.GridTilings
import TriMesh.Proofs.PlaneLayers
import TriMesh.Proofs.LatticeTilings
import TriMesh.Proofs.OutwardLattices
import TriMesh.Proofs.CutTubes
import TriMesh.Proofs.OutwardTubes
import TriMesh.Proofs.SpaceVectors
import TriMesh.Proofs.FaceNormals
import TriMesh.Proofs.LinearMaps
import TriMesh.Proofs.ComposedTransforms
import TriMesh.Proofs.JoinedSubMeshes
import TriMesh.Proofs.BoundingBoxes
import TriMesh.Proofs.JsonRoundTrips
import TriMesh.Proofs.SolidVolumes
import TriMesh.Proofs.ConeNormals
import TriMesh.Proofs.ReversedWindings
import TriMesh.Proofs.Cutouts
import TriMesh.Proofs.FileExtensions
import TriMesh.Proofs.JsonMembers
