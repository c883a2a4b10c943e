import Bouncer.Multipart.Jobs
import Bouncer.Scene.RepoScene
import Bouncer.Clash.Degenerate
import Bouncer.Core.PropertyTree
import Bouncer.Import.SharedMaterials
import Bouncer.Clash.Validation
import Bouncer.Handler.InsertMany
import Bouncer.Scene.SceneManager
import Bouncer.Import.AssimpReferences
import Bouncer.Import.AssimpGeometry
import Bouncer.Import.IfcGroups
import Bouncer.Import.DrawContexts
import Bouncer.Import.BimSections
import Bouncer.Multipart.SplitMesh
import Bouncer.Core.RenderingClass
import Bouncer.Core.DuplicateVertices
import Bouncer.Import.MeshExtraction
import Bouncer.Clash.CompositeObjects
import Bouncer.Import.BackPressure
import Bouncer.Clash.Scheduler
import Bouncer.SpatialPartitioning.Coverage
import Bouncer.Clash.Contacts
import Bouncer.Clash.IndexedMeshBuilder
import Bouncer.Clash.VertexOrder
import Bouncer.Clash.MeshLoading
import Bouncer.Clash.PenetrationDepth
import Bouncer.Clash.TriangleDistance
import Bouncer.Handler.FileHandler
import Bouncer.Import.SynchroVisibility
import Bouncer.Multipart.LowShare
import Bouncer.Import.BimViews
import Bouncer.Import.SynchroRecords
import Bouncer.Multipart.TransformTree
import Bouncer.Import.BimMatrices
import Bouncer.Clash.CheckedDivision
import Bouncer.Core.TransformedBounds
import Bouncer.Multipart.TransformedNormals
import Bouncer.Import.AssimpBounds
import Bouncer.Import.IfcMetadata
import Bouncer.Import.IfcUnits
import Bouncer.Import.SynchroTransformations
import Bouncer.Scene.SelectionTreeLinks
import Bouncer.Worker.ProcessMonitor
import Bouncer.Multipart.Bookkeeping
import Bouncer.Clash.HardThreads
import Bouncer.Bvh.RadixKey
import Bouncer.Bvh.SweepSahTasks
import Bouncer.Clash.RayContains
import Bouncer.SpscQueue.Capacity
import Bouncer.SpscQueue.Destructor
import Bouncer.SpscQueue.LightweightSemaphore
import Bouncer.Handler.WriteContext
